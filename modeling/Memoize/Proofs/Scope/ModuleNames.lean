import Memoize.Proofs.Scope.Placement
import Memoize.Token.Lexer

/-!
# Holders in a module

The holders in a treated module differ from each other and from the names that its items declare,
as far as these are looked for. Names that are not looked for are those of functions and variables
that an extern block declares, and some others (`Item.declaresFurther`): the holders differ from all
declared names exactly if none of them is one of these (`module_holders_apart`).
-/

namespace Memoize

/-- All names that an item declares in its scope. -/
def Item.declaresAll (i : Item) : List String := i.declares ++ i.declaresFurther

namespace Scope

/-- The head and the items of the inline module that a text is. -/
def readModule? (source : String) : Option (ModuleHead × List Item) :=
  match (TokenTree.lex 0 source).bind Syntax.parseItem? with
  | some (.module head items) => some (head, items)
  | _ => none

/-- The holders in a module are distinct. -/
theorem holders_nodup {scope : ScopeArgs} {head : ModuleHead} {is : List Item} {r : NewModule}
    (h : module scope head is = some r) : (holderNames r.holders).Nodup := by
  obtain ⟨names', hserves⟩ := module_serves h
  rw [← r.map_placed]
  exact hserves.nodup

/-- No holder in a module has a name that an item declares, but for further ones. -/
theorem holders_not_declared {scope : ScopeArgs} {head : ModuleHead} {is : List Item}
    {r : NewModule} (h : module scope head is = some r) {x : String}
    (hx : x ∈ holderNames r.holders) {i : Item} (hi : i ∈ is) : x ∉ i.declares.map unraw := by
  obtain ⟨names', hserves⟩ := module_serves h
  rw [← r.map_placed] at hx
  exact fun hdeclared => hserves.not_taken hx (Names.mem_ofItems.mpr ⟨i, hi, hdeclared⟩)

/-- The holders in a module have names of the form of holder names. -/
theorem holders_form {scope : ScopeArgs} {head : ModuleHead} {is : List Item} {r : NewModule}
    (h : module scope head is = some r) {x : String} (hx : x ∈ holderNames r.holders) :
    Names.HasHolderForm x := by
  obtain ⟨names', hserves⟩ := module_serves h
  rw [← r.map_placed] at hx
  obtain ⟨⟨f, x⟩, hfx, rfl⟩ := List.mem_map.mp hx
  obtain ⟨n, rfl⟩ := hserves.base_of_mem hfx
  exact Names.hasHolderForm_base _ f n

/-- The holders in a treated module differ from each other and from all names that its items
declare, but for further ones. They differ from all declared names exactly if no further name is
that of a holder, so they do if no further name has the form of holder names. -/
theorem module_holders_apart (scope : ScopeArgs) (head : ModuleHead) (is : List Item)
    (r : NewModule) (h : module scope head is = some r) :
    (holderNames r.holders).Nodup ∧
    (∀ x ∈ holderNames r.holders, ∀ i ∈ is, x ∉ i.declares.map unraw) ∧
    ((∀ x ∈ holderNames r.holders, ∀ i ∈ is, x ∉ i.declaresAll.map unraw) ↔
      ∀ i ∈ is, ∀ y ∈ i.declaresFurther, unraw y ∉ holderNames r.holders) ∧
    ((∀ i ∈ is, ∀ y ∈ i.declaresFurther, ¬ Names.HasHolderForm (unraw y)) →
      ∀ x ∈ holderNames r.holders, ∀ i ∈ is, x ∉ i.declaresAll.map unraw) := by
  have hiff : (∀ x ∈ holderNames r.holders, ∀ i ∈ is, x ∉ i.declaresAll.map unraw) ↔
      ∀ i ∈ is, ∀ y ∈ i.declaresFurther, unraw y ∉ holderNames r.holders := by
    constructor
    · intro hall i hi y hy hmem
      apply hall _ hmem i hi
      exact List.mem_map_of_mem (List.mem_append_right _ hy)
    · intro hfurther x hx i hi hmem
      rw [Item.declaresAll, List.map_append, List.mem_append] at hmem
      rcases hmem with hmem | hmem
      · exact holders_not_declared h hx hi hmem
      · obtain ⟨y, hy, rfl⟩ := List.mem_map.mp hmem
        exact hfurther i hi y hy hx
  refine ⟨holders_nodup h, fun x hx i hi => holders_not_declared h hx hi, hiff, fun hform => ?_⟩
  exact hiff.mpr fun i hi y hy hmem => hform i hi y hy (holders_form h hmem)

/-- A module with a constant, a function and a method that compete for names, and an extern block
that declares another name. -/
def contestedModule : String :=
  "mod m \x7b extern \"C\" \x7b fn seed() -> u8; \x7d " ++
    "const __F_CACHE_0: u8 = 0; #[cached] fn f() -> u8 \x7b 1 \x7d " ++
    "impl A \x7b #[cached] fn f() -> u8 \x7b 2 \x7d \x7d \x7d"

/-- The holders in such a module. -/
theorem module_holders_apart_constant :
    ∃ head is r, readModule? contestedModule = some (head, is) ∧
      module ⟨none⟩ head is = some r ∧
      holderNames r.holders = ["__F_CACHE_1", "__F_CACHE_2"] ∧
      (holderNames r.holders).Nodup ∧
      ∀ x ∈ holderNames r.holders, ∀ i ∈ is, x ∉ i.declaresAll.map unraw := by
  have hrun : (readModule? contestedModule).bind
      (fun q => (module ⟨none⟩ q.1 q.2).map fun r =>
        (holderNames r.holders, q.2.flatMap Item.declaresFurther)) =
      some (["__F_CACHE_1", "__F_CACHE_2"], ["seed"]) := by
    decide +kernel
  obtain ⟨⟨head, is⟩, hread, hmap⟩ := Option.bind_eq_some_iff.mp hrun
  obtain ⟨r, hr, hnames⟩ := Option.map_eq_some_iff.mp hmap
  obtain ⟨hholders, hfurther⟩ := Prod.mk.inj hnames
  obtain ⟨hnodup, -, hiff, -⟩ := module_holders_apart ⟨none⟩ head is r hr
  refine ⟨head, is, r, hread, hr, hholders, hnodup, hiff.mpr fun i hi y hy => ?_⟩
  have hseed : y ∈ is.flatMap Item.declaresFurther := List.mem_flatMap.mpr ⟨i, hi, hy⟩
  rw [hfurther] at hseed
  obtain rfl := List.mem_singleton.mp hseed
  rw [hholders]
  decide

/-- A module whose extern block declares a variable by the name of a holder. -/
def foreignModule : String :=
  "mod m \x7b extern \"C\" \x7b static __F_CACHE_0: u8; \x7d " ++
    "#[cached] fn f() -> u8 \x7b 1 \x7d \x7d"

/-- The holder in a module can have the name of a variable that an extern block of the module
declares. -/
theorem module_holder_is_foreign :
    ∃ head is r, readModule? foreignModule = some (head, is) ∧
      module ⟨none⟩ head is = some r ∧
      ¬ ∀ x ∈ holderNames r.holders, ∀ i ∈ is, x ∉ i.declaresAll.map unraw := by
  have hrun : (readModule? foreignModule).bind
      (fun q => (module ⟨none⟩ q.1 q.2).map fun r =>
        (holderNames r.holders, q.2.map fun i => i.declaresAll.map unraw)) =
      some (["__F_CACHE_0"], [["__F_CACHE_0"], ["f"]]) := by
    decide +kernel
  obtain ⟨⟨head, is⟩, hread, hmap⟩ := Option.bind_eq_some_iff.mp hrun
  obtain ⟨r, hr, hnames⟩ := Option.map_eq_some_iff.mp hmap
  obtain ⟨hholders, hall⟩ := Prod.mk.inj hnames
  refine ⟨head, is, r, hread, hr, fun happart => ?_⟩
  have hmem : ["__F_CACHE_0"] ∈ is.map fun i => i.declaresAll.map unraw := by
    rw [hall]
    exact List.mem_cons_self
  obtain ⟨i, hi, hdeclares⟩ := List.mem_map.mp hmem
  refine happart "__F_CACHE_0" (by rw [hholders]; exact List.mem_cons_self) i hi ?_
  rw [hdeclares]
  exact List.mem_cons_self

end Scope

end Memoize
