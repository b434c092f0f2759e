import Memoize.Proofs.Owner.Words
import Memoize.Proofs.Scope.Placement
import Memoize.Token.Lexer

/-!
# Holders of sibling blocks

The holders of an implementation block that stands on its own are named by stems: the upper-case
words of its type and trait and the name of the method, joined by underscores. Two blocks share a
holder name only where methods share a stem (`sibling_blocks_apart`). Different types may have the
same stems, since marks, and the difference of upper and lower case, get lost.
-/

namespace Memoize.Scope

open OwnerName

/-- The implementation block that a text is. -/
def readBlock? (source : String) : Option ImplBlock :=
  match (TokenTree.lex 0 source).bind Syntax.parseItem? with
  | some (.block b) => some b
  | _ => none

/-! ### Stems -/

/-- The words of a block and the name of a method in upper case, joined. -/
def stem (b : ImplBlock) (f : String) : String :=
  "_".intercalate ((spelled b ++ [unraw f]).map Text.upper)

/-- The upper-case form of joined words. -/
theorem upper_joined (ws : List String) :
    Text.upper ("_".intercalate ws) = "_".intercalate (ws.map Text.upper) := by
  rw [Text.upper_intercalate]
  rfl

/-- The stem after the words of a block, if there are any. -/
theorem stem_of_ne_nil {b : ImplBlock} (h : spelled b ≠ []) (f : String) :
    stem b f = "_".intercalate ((spelled b).map Text.upper) ++ "_" ++ Text.upper (unraw f) := by
  rw [stem, List.map_append, String.intercalate_append_of_ne_nil (by simpa using h) (by simp),
    List.map_singleton, String.intercalate_singleton]

/-- The stem of a block without words. -/
theorem stem_of_nil {b : ImplBlock} (h : spelled b = []) (f : String) :
    stem b f = Text.upper (unraw f) := by
  rw [stem, h, List.nil_append, List.map_singleton, String.intercalate_singleton]

/-- What the stems of a block begin with. -/
def lead (b : ImplBlock) : String :=
  if spelled b = [] then "" else "_".intercalate ((spelled b).map Text.upper) ++ "_"

/-- A stem is the lead of its block and the name of the method in upper case. -/
theorem stem_eq_lead (b : ImplBlock) (f : String) :
    stem b f = lead b ++ Text.upper (unraw f) := by
  by_cases h : spelled b = []
  · rw [stem_of_nil h, lead, if_pos h, String.empty_append]
  · rw [stem_of_ne_nil h, lead, if_neg h]

/-- Blocks with a stem in common have leads of which one begins the other. -/
theorem lead_prefix_of_stem_eq {b₁ b₂ : ImplBlock} {f g : String} (h : stem b₁ f = stem b₂ g) :
    (lead b₁).toList <+: (lead b₂).toList ∨ (lead b₂).toList <+: (lead b₁).toList := by
  rw [stem_eq_lead, stem_eq_lead] at h
  have hchars := congrArg String.toList h
  rw [String.toList_append, String.toList_append] at hchars
  have hfirst : (lead b₁).toList <+: (lead b₂).toList ++ (Text.upper (unraw g)).toList :=
    hchars ▸ List.prefix_append _ _
  exact List.prefix_or_prefix_of_prefix hfirst (List.prefix_append _ _)

/-- What the holder names of a method begin with. -/
theorem base_blockNames (b : ImplBlock) (f : String) :
    (blockNames b).base f = "__" ++ stem b f ++ "_CACHE" := by
  by_cases h : spelled b = []
  · have hnone : ofBlock b = none := by simp [ofBlock, h]
    have howner : (blockNames b).owner = none := by
      rw [blockNames, hnone]
      exact Names.owner_reserveAll _ _
    simp only [Names.base, howner, stem_of_nil h]
  · have hsome : ofBlock b = some ("_".intercalate (spelled b)) := by simp [ofBlock, h]
    have howner : (blockNames b).owner =
        some ("_".intercalate ((spelled b).map Text.upper)) := by
      rw [blockNames, hsome, ← upper_joined]
      rfl
    simp only [Names.base, howner, stem_of_ne_nil h, String.append_assoc]

/-- The words of a block in upper case are the doubled upper-case words. -/
theorem upper_spelled (b : ImplBlock) :
    (spelled b).map Text.upper = ((words b).map Text.upper).map double := by
  rw [spelled_eq, List.map_map, List.map_map]
  exact congrArg ((words b).map ·) (funext upper_double)

/-- The stem of a method in a block with words is longer than that in a block without. -/
theorem stem_ne_of_nil {b₁ b₂ : ImplBlock} {f g : String}
    (hfg : Text.upper (unraw f) = Text.upper (unraw g)) (h₁ : spelled b₁ = [])
    (h₂ : spelled b₂ ≠ []) : stem b₁ f ≠ stem b₂ g := by
  intro h
  rw [stem_of_nil h₁, stem_of_ne_nil h₂, hfg] at h
  have hlength := congrArg String.length h
  simp only [String.length_append] at hlength
  have hone : "_".length = 1 := rfl
  omega

/-- If no word begins with an underscore, methods of one name share a stem exactly if the words of
their blocks are the same in upper case. -/
theorem stem_eq_iff {b₁ b₂ : ImplBlock} (h₁ : ∀ w ∈ words b₁, Plain w)
    (h₂ : ∀ w ∈ words b₂, Plain w) {f g : String}
    (hfg : Text.upper (unraw f) = Text.upper (unraw g)) :
    stem b₁ f = stem b₂ g ↔ (words b₁).map Text.upper = (words b₂).map Text.upper := by
  constructor
  · intro h
    have hplain : ∀ {b : ImplBlock}, (∀ w ∈ words b, Plain w) →
        ∀ w ∈ (words b).map Text.upper, Plain w := by
      intro b hb w hw
      obtain ⟨v, hv, rfl⟩ := List.mem_map.mp hw
      exact (hb v hv).upper
    apply intercalate_double_inj (hplain h₁) (hplain h₂)
    rw [← upper_spelled, ← upper_spelled]
    by_cases hnil₁ : spelled b₁ = []
    · by_cases hnil₂ : spelled b₂ = []
      · rw [hnil₁, hnil₂]
      · exact absurd h (stem_ne_of_nil hfg hnil₁ hnil₂)
    · by_cases hnil₂ : spelled b₂ = []
      · exact absurd h.symm (stem_ne_of_nil hfg.symm hnil₂ hnil₁)
      · rw [stem_of_ne_nil hnil₁, stem_of_ne_nil hnil₂, hfg] at h
        exact (String.append_left_inj _).mp ((String.append_left_inj _).mp h)
  · intro h
    rw [stem, stem, List.map_append, List.map_append, upper_spelled, upper_spelled, h,
      List.map_singleton, List.map_singleton, hfg]

/-! ### Names of two blocks -/

/-- The names taken in a block that stands on its own are those of its members. -/
theorem mem_blockNames {b : ImplBlock} {x : String} :
    x ∈ (blockNames b).taken ↔ ∃ m ∈ b.members, x ∈ (Names.memberNames m).map unraw := by
  have htaken : (blockNames b).taken = (Names.ofMembers b.members).taken := by
    unfold blockNames
    split <;> rfl
  simp only [htaken, Names.ofMembers, Names.mem_reserveAll, Names.empty, List.not_mem_nil, or_false,
    List.map_flatMap, List.mem_flatMap]

/-- Whether no member of a block, and no body in it, declares a name of the form of holder names. -/
def Uncontested (b : ImplBlock) : Prop :=
  ∀ m ∈ b.members, ∀ y ∈ Names.memberNames m ++ memberBodyNames m, ¬ Names.HasHolderForm (unraw y)

/-- Two holder names of methods are equal only if the methods share a stem. -/
theorem stem_of_placed {scope : ScopeArgs} {b : ImplBlock} {r : NewBlock} {names : Names}
    (h : block scope (blockNames b) b = some (r, names)) {f x : String} (hfx : (f, x) ∈ r.placed) :
    ∃ n, x = Names.numbered ("__" ++ stem b f ++ "_CACHE") n := by
  have hserves := block_serves (R := fun _ => True) (fun _ _ _ _ => trivial) h
  obtain ⟨n, hx⟩ := hserves.base_of_mem hfx
  exact ⟨n, by rw [hx, base_blockNames]⟩

/-- In a block where no name is contested the first method with a stem has the holder with number
zero. -/
theorem zero_placed {scope : ScopeArgs} {b : ImplBlock} {r : NewBlock} {names : Names}
    (h : block scope (blockNames b) b = some (r, names)) (hb : Uncontested b) {f x : String}
    (hfx : (f, x) ∈ r.placed) :
    Names.numbered ("__" ++ stem b f ++ "_CACHE") 0 ∈ holderNames r.holders := by
  have hserves := block_serves (R := fun y => ¬ Names.HasHolderForm y)
    (fun m hm y hy => hb m hm y (List.mem_append_right _ hy)) h
  rw [← r.map_placed, ← base_blockNames]
  refine hserves.zero_given hfx (fun n hn => hn (Names.hasHolderForm_base _ f n)) fun n hn => ?_
  obtain ⟨m, hm, hy⟩ := mem_blockNames.mp hn
  obtain ⟨y, hy, hyn⟩ := List.mem_map.mp hy
  apply hb m hm y (List.mem_append_left _ hy)
  rw [hyn]
  exact Names.hasHolderForm_base _ f n

/-- Two blocks that stand on their own share the name of a holder only where methods share a stem.
If no name is contested in them, they do wherever methods share a stem. Whatever their methods are,
they share none if the lead of neither begins that of the other. Methods of one name share a stem
exactly if the words of the types and traits of their blocks are the same in upper case, as long as
no word begins with an underscore. -/
theorem sibling_blocks_apart (scope₁ scope₂ : ScopeArgs) (b₁ b₂ : ImplBlock) (r₁ r₂ : NewBlock)
    (names₁ names₂ : Names) (h₁ : block scope₁ (blockNames b₁) b₁ = some (r₁, names₁))
    (h₂ : block scope₂ (blockNames b₂) b₂ = some (r₂, names₂)) :
    (∀ p ∈ r₁.placed, ∀ q ∈ r₂.placed, p.2 = q.2 → stem b₁ p.1 = stem b₂ q.1) ∧
    (Uncontested b₁ → Uncontested b₂ →
      ((∀ x ∈ holderNames r₁.holders, x ∉ holderNames r₂.holders) ↔
        ∀ p ∈ r₁.placed, ∀ q ∈ r₂.placed, stem b₁ p.1 ≠ stem b₂ q.1)) ∧
    (¬ (lead b₁).toList <+: (lead b₂).toList → ¬ (lead b₂).toList <+: (lead b₁).toList →
      ∀ x ∈ holderNames r₁.holders, x ∉ holderNames r₂.holders) ∧
    ((∀ w ∈ words b₁ ++ words b₂, Plain w) →
      ∀ f g, Text.upper (unraw f) = Text.upper (unraw g) →
        (stem b₁ f = stem b₂ g ↔ (words b₁).map Text.upper = (words b₂).map Text.upper)) := by
  have hshared : ∀ p ∈ r₁.placed, ∀ q ∈ r₂.placed, p.2 = q.2 → stem b₁ p.1 = stem b₂ q.1 := by
    intro p hp q hq heq
    obtain ⟨m, hm⟩ := stem_of_placed h₁ hp
    obtain ⟨n, hn⟩ := stem_of_placed h₂ hq
    rw [hm, hn] at heq
    have hbase := (Names.numbered_inj.mp heq).1
    exact (String.append_right_inj _).mp ((String.append_left_inj _).mp hbase)
  have hdisjoint : (∀ p ∈ r₁.placed, ∀ q ∈ r₂.placed, stem b₁ p.1 ≠ stem b₂ q.1) →
      ∀ x ∈ holderNames r₁.holders, x ∉ holderNames r₂.holders := by
    intro hstems x hx₁ hx₂
    rw [← NewBlock.map_placed] at hx₁ hx₂
    obtain ⟨p, hp, rfl⟩ := List.mem_map.mp hx₁
    obtain ⟨q, hq, heq⟩ := List.mem_map.mp hx₂
    exact hstems p hp q hq (hshared p hp q hq heq.symm)
  refine ⟨hshared, fun hb₁ hb₂ => ⟨?_, hdisjoint⟩, fun hl₁ hl₂ => ?_, fun hplain f g hfg => ?_⟩
  · intro hapart p hp q hq hstem
    apply hapart _ (zero_placed h₁ hb₁ hp)
    rw [hstem]
    exact zero_placed h₂ hb₂ hq
  · apply hdisjoint
    intro p hp q hq hstem
    rcases lead_prefix_of_stem_eq hstem with hlead | hlead
    · exact hl₁ hlead
    · exact hl₂ hlead
  · exact stem_eq_iff (fun w hw => hplain w (List.mem_append_left _ hw))
      (fun w hw => hplain w (List.mem_append_right _ hw)) hfg

/-- The treated block that a text is: the functions with holders, the words of the block, the length
of its type, and the names that members and bodies declare. -/
def summary (source : String) :
    Option (List (String × String) × List String × Nat × List String) :=
  (readBlock? source).bind fun b => (block ⟨none⟩ (blockNames b) b).map fun r =>
    (r.1.placed, words b, b.selfType.tokens.length,
      b.members.flatMap fun m => Names.memberNames m ++ memberBodyNames m)

/-- What a summary tells of the block. -/
theorem summary_eq_some {source : String} {placed : List (String × String)}
    {ws declared : List String} {n : Nat} (h : summary source = some (placed, ws, n, declared)) :
    ∃ b r names, readBlock? source = some b ∧ block ⟨none⟩ (blockNames b) b = some (r, names) ∧
      r.placed = placed ∧ words b = ws ∧ b.selfType.tokens.length = n ∧
      (b.members.flatMap fun m => Names.memberNames m ++ memberBodyNames m) = declared := by
  obtain ⟨b, hb, hmap⟩ := Option.bind_eq_some_iff.mp h
  obtain ⟨⟨r, names⟩, hr, heq⟩ := Option.map_eq_some_iff.mp hmap
  obtain ⟨hplaced, hrest⟩ := Prod.mk.inj heq
  obtain ⟨hwords, hrest⟩ := Prod.mk.inj hrest
  obtain ⟨hlength, hdeclared⟩ := Prod.mk.inj hrest
  exact ⟨b, r, names, hb, hr, hplaced, hwords, hlength, hdeclared⟩

/-- A block for a type with a method that is memoized. -/
def areaBlock (type : String) : String :=
  "impl Area for " ++ type ++ " \x7b #[cached] fn unit() -> u8 \x7b 1 \x7d \x7d"

/-- The block of a type that is a name. -/
theorem summary_circle : summary (areaBlock "Circle") =
    some ([("unit", "__CIRCLE_AREA_UNIT_CACHE_0")], ["Circle", "Area"], 1, ["unit"]) := by
  decide +kernel

/-- No name is contested in a block that declares no more than the name of its method. -/
theorem uncontested_unit {b : ImplBlock}
    (h : (b.members.flatMap fun m => Names.memberNames m ++ memberBodyNames m) = ["unit"]) :
    Uncontested b := by
  intro m hm y hy hform
  have hunit : y ∈ b.members.flatMap fun m => Names.memberNames m ++ memberBodyNames m :=
    List.mem_flatMap.mpr ⟨m, hm, hy⟩
  rw [h] at hunit
  obtain rfl := List.mem_singleton.mp hunit
  exact absurd hform.head? (by decide)

/-- The blocks of two types with names of their own share no holder. -/
theorem sibling_blocks_apart_words :
    ∃ b₁ b₂ r₁ r₂ names₁ names₂,
      readBlock? (areaBlock "Circle") = some b₁ ∧
      readBlock? (areaBlock "Square") = some b₂ ∧
      block ⟨none⟩ (blockNames b₁) b₁ = some (r₁, names₁) ∧
      block ⟨none⟩ (blockNames b₂) b₂ = some (r₂, names₂) ∧
      r₁.placed = [("unit", "__CIRCLE_AREA_UNIT_CACHE_0")] ∧
      ∀ x ∈ holderNames r₁.holders, x ∉ holderNames r₂.holders := by
  obtain ⟨b₁, r₁, names₁, hb₁, hr₁, hplaced₁, hwords₁, -, hdeclared₁⟩ :=
    summary_eq_some summary_circle
  obtain ⟨b₂, r₂, names₂, hb₂, hr₂, hplaced₂, hwords₂, -, hdeclared₂⟩ := summary_eq_some (show
    summary (areaBlock "Square") =
      some ([("unit", "__SQUARE_AREA_UNIT_CACHE_0")], ["Square", "Area"], 1, ["unit"]) by
    decide +kernel)
  obtain ⟨-, hiff, -, hwords⟩ :=
    sibling_blocks_apart ⟨none⟩ ⟨none⟩ b₁ b₂ r₁ r₂ names₁ names₂ hr₁ hr₂
  refine ⟨b₁, b₂, r₁, r₂, names₁, names₂, hb₁, hb₂, hr₁, hr₂, hplaced₁, ?_⟩
  apply (hiff (uncontested_unit hdeclared₁) (uncontested_unit hdeclared₂)).mpr
  intro p hp q hq hstem
  rw [hplaced₁] at hp
  rw [hplaced₂] at hq
  obtain rfl := List.mem_singleton.mp hp
  obtain rfl := List.mem_singleton.mp hq
  have hupper := (hwords ?_ "unit" "unit" rfl).mp hstem
  · rw [hwords₁, hwords₂] at hupper
    exact absurd hupper (by decide)
  · rw [hwords₁, hwords₂]
    intro w hw
    simp only [List.cons_append, List.nil_append, List.mem_cons, List.not_mem_nil, or_false] at hw
    rcases hw with rfl | rfl | rfl | rfl
    · exact ⟨'C', "ircle".toList, rfl, by decide⟩
    · exact ⟨'A', "rea".toList, rfl, by decide⟩
    · exact ⟨'S', "quare".toList, rfl, by decide⟩
    · exact ⟨'A', "rea".toList, rfl, by decide⟩

/-- The blocks of a type and of references to it share a holder. -/
theorem sibling_blocks_share_holder :
    ∃ b₁ b₂ r₁ r₂ names₁ names₂,
      readBlock? (areaBlock "Circle") = some b₁ ∧
      readBlock? (areaBlock "&Circle") = some b₂ ∧
      b₁.selfType.tokens.length ≠ b₂.selfType.tokens.length ∧
      block ⟨none⟩ (blockNames b₁) b₁ = some (r₁, names₁) ∧
      block ⟨none⟩ (blockNames b₂) b₂ = some (r₂, names₂) ∧
      "__CIRCLE_AREA_UNIT_CACHE_0" ∈ holderNames r₁.holders ∧
      "__CIRCLE_AREA_UNIT_CACHE_0" ∈ holderNames r₂.holders := by
  obtain ⟨b₁, r₁, names₁, hb₁, hr₁, hplaced₁, -, hlength₁, -⟩ := summary_eq_some summary_circle
  obtain ⟨b₂, r₂, names₂, hb₂, hr₂, hplaced₂, -, hlength₂, -⟩ := summary_eq_some (show
    summary (areaBlock "&Circle") =
      some ([("unit", "__CIRCLE_AREA_UNIT_CACHE_0")], ["Circle", "Area"], 2, ["unit"]) by
    decide +kernel)
  refine ⟨b₁, b₂, r₁, r₂, names₁, names₂, hb₁, hb₂, ?_, hr₁, hr₂, ?_, ?_⟩
  · rw [hlength₁, hlength₂]
    decide
  · rw [← NewBlock.map_placed, hplaced₁]
    exact List.mem_cons_self
  · rw [← NewBlock.map_placed, hplaced₂]
    exact List.mem_cons_self

end Memoize.Scope
