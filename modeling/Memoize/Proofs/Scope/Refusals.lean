import Memoize.Proofs.Scope.ModuleNames
import Memoize.Proofs.Scope.Outcomes

/-!
# Refused functions

A function of a scope that is refused takes no name, so the others fare as if it had asked for no
caching. Main statement: a scope with a refused function is treated as the same scope with the
attribute deleted, but for the diagnostics of the function at its place
(`refusal_disturbs_nothing`).

## Implementation notes

`Position` is a scope with a gap for one function. Both scopes of the main statement fill the same
gap, with the function as it is annotated and as it is without the attribute.
-/

namespace Memoize.Scope

/-! ### Treated scopes -/

/-- What a scope becomes: the outcomes of its functions in order, and its code without diagnostics.
-/
structure Treated where
  outcomes : List Outcome
  tokens : List TokenTree

namespace Treated

/-- The holders in order. -/
def holders (t : Treated) : List Holder := t.outcomes.filterMap Outcome.holder?

/-- The diagnostics in order. -/
def diagnostics (t : Treated) : List Diagnostic := t.outcomes.flatMap Outcome.diagnostics

end Treated

/-- Treats an item as a scope, if it is an inline module or an implementation block. The answer is
nothing as well if added code would be no code. -/
def treat (scope : ScopeArgs) : Item → Option Treated
  | .module head is => (module scope head is).map fun m => ⟨m.outcomes, m.tokens⟩
  | .block b =>
    (block scope (blockNames b) b).map fun r =>
      ⟨r.1.outcomes, r.1.holders.flatMap Holder.tokens ++ r.1.tokens⟩
  | .function _ => none
  | .other _ _ _ => none

/-- A treated scope is expanded to its code with its diagnostics after it. -/
theorem expandWith_of_treat {scope : ScopeArgs} {ts : List TokenTree} {i : Item} {t : Treated}
    (hparse : Syntax.parseItem? ts = some i) (ht : treat scope i = some t) :
    expandWith scope ts = some (withErrors t.tokens t.diagnostics) := by
  cases i with
  | function f => cases ht
  | other names further p => cases ht
  | module head is =>
      obtain ⟨m, hm, rfl⟩ := Option.map_eq_some_iff.mp ht
      simp only [expandWith, hparse, hm, Option.map_some, Treated.diagnostics, m.diagnostics_eq]
  | block b =>
      obtain ⟨r, hr, rfl⟩ := Option.map_eq_some_iff.mp ht
      simp only [expandWith, hparse, hr, Option.map_some, Treated.diagnostics, r.1.diagnostics_eq]

/-! ### Positions of functions -/

/-- A scope with a gap for a function: among the items of a module, among the members of a block in
a module, or among those of a block that is a scope of its own. -/
inductive Position where
  | item (head : ModuleHead) (before after : List Item)
  | memberInModule (head : ModuleHead) (before : List Item) (block : ImplBlock)
      (earlier later : List Member) (after : List Item)
  | member (block : ImplBlock) (earlier later : List Member)

namespace Position

/-- A block with given members. -/
def blockWith (b : ImplBlock) (ms : List Member) : ImplBlock := { b with members := ms }

/-- The scope with a function in the gap. -/
def fill (f : Function) : Position → Item
  | item head before after => .module head (before ++ .function f :: after)
  | memberInModule head before b earlier later after =>
    .module head (before ++ .block (blockWith b (earlier ++ .function f :: later)) :: after)
  | member b earlier later => .block (blockWith b (earlier ++ .function f :: later))

/-- The owner of a function in the gap. -/
def owner? : Position → Option Owner
  | item _ _ _ => none
  | memberInModule _ _ b _ _ _ => some (.of b)
  | member b _ _ => some (.of b)

/-- The functions before the gap in source order. -/
def before : Position → List (Option Owner × Function)
  | item _ before _ => before.flatMap itemFunctions
  | memberInModule _ before b earlier _ _ =>
    before.flatMap itemFunctions ++ memberFunctions (.of b) earlier
  | member b earlier _ => memberFunctions (.of b) earlier

/-- The functions after the gap in source order. -/
def after : Position → List (Option Owner × Function)
  | item _ _ after => after.flatMap itemFunctions
  | memberInModule _ _ b _ later after =>
    memberFunctions (.of b) later ++ after.flatMap itemFunctions
  | member b _ later => memberFunctions (.of b) later

end Position

/-! ### A refused function -/

variable {scope : ScopeArgs} {names names' : Names} {f g : Function} {a : Attribute}
  {ds : List Diagnostic}

/-- Functions with their outcomes, of which one is refused in the first list and untouched in the
second. -/
structure Differ (g : Function) (ds : List Diagnostic)
    (before after : List (Option Owner × Function)) (os os' : List Outcome) : Prop where
  split : ∃ o₁ o₂ : List Outcome, os = o₁ ++ .refused g ds :: o₂ ∧ os' = o₁ ++ .untouched g :: o₂ ∧
    o₁.length = before.length ∧
    o₁.flatMap Outcome.diagnostics = before.flatMap complaints ∧
    o₂.flatMap Outcome.diagnostics = after.flatMap complaints

namespace Differ

/-- The function alone. -/
theorem alone (g : Function) (ds : List Diagnostic) :
    Differ g ds [] [] [.refused g ds] [.untouched g] :=
  ⟨[], [], rfl, rfl, rfl, rfl, rfl⟩

/-- Functions before and after it. -/
theorem extend {before after fs₁ fs₂ : List (Option Owner × Function)}
    {os os' o₁ o₂ : List Outcome} (h : Differ g ds before after os os')
    (h₁ : o₁.length = fs₁.length ∧ o₁.flatMap Outcome.diagnostics = fs₁.flatMap complaints)
    (h₂ : o₂.length = fs₂.length ∧ o₂.flatMap Outcome.diagnostics = fs₂.flatMap complaints) :
    Differ g ds (fs₁ ++ before) (after ++ fs₂) (o₁ ++ (os ++ o₂)) (o₁ ++ (os' ++ o₂)) := by
  obtain ⟨q₁, q₂, rfl, rfl, hlength, hbefore, hafter⟩ := h.split
  refine ⟨o₁ ++ q₁, q₂ ++ o₂, by simp, by simp, ?_, ?_, ?_⟩
  · rw [List.length_append, List.length_append, h₁.1, hlength]
  · rw [List.flatMap_append, List.flatMap_append, h₁.2, hbefore]
  · rw [List.flatMap_append, List.flatMap_append, h₂.2, hafter]

/-- The holders are the same. -/
theorem holders_eq {before after : List (Option Owner × Function)} {os os' : List Outcome}
    (h : Differ g ds before after os os') :
    os'.filterMap Outcome.holder? = os.filterMap Outcome.holder? := by
  obtain ⟨o₁, o₂, rfl, rfl, -⟩ := h.split
  rw [List.filterMap_append, List.filterMap_append]
  rfl

/-- The diagnostics of the function are missing in the second list. -/
theorem diagnostics_eq {before after : List (Option Owner × Function)} {os os' : List Outcome}
    (h : Differ g ds before after os os') :
    os.flatMap Outcome.diagnostics =
        before.flatMap complaints ++ (ds ++ after.flatMap complaints) ∧
      os'.flatMap Outcome.diagnostics = before.flatMap complaints ++ after.flatMap complaints := by
  obtain ⟨o₁, o₂, rfl, rfl, -, hbefore, hafter⟩ := h.split
  rw [List.flatMap_append, List.flatMap_append, List.flatMap_cons, List.flatMap_cons, hbefore,
    hafter]
  exact ⟨rfl, rfl⟩

end Differ

/-- A refused method leaves the other members of its block, and the names, as if it had asked for
nothing. -/
theorem block_of_refusal {b : ImplBlock} {ms₁ ms₂ : List Member} {r : NewBlock}
    (htake : f.takeCached = some (a, g)) (honly : g.takeCached = none)
    (hrefused : refusal? a g (some (.of b)) = some ds)
    (h : block scope names (Position.blockWith b (ms₁ ++ .function f :: ms₂)) = some (r, names')) :
    ∃ r', block scope names (Position.blockWith b (ms₁ ++ .function g :: ms₂)) =
        some (r', names') ∧
      r'.tokens = r.tokens ∧ r'.holders = r.holders ∧
      Differ g ds (memberFunctions (.of b) ms₁) (memberFunctions (.of b) ms₂) r.outcomes
        r'.outcomes := by
  obtain ⟨⟨ms, new⟩, hms, heq⟩ := Option.map_eq_some_iff.mp h
  obtain ⟨rfl, rfl⟩ := Prod.mk.inj heq
  obtain ⟨r₁, names₁, o, names₂, r₂, h₁, ho, h₂, rfl⟩ := members_split hms
  have ho' : some (Outcome.refused g ds, names₁) = some (o, names₂) :=
    (function_of_refusal htake hrefused).symm.trans ho
  obtain ⟨rfl, rfl⟩ := Prod.mk.inj (Option.some.inj ho')
  have hjoin := members_join h₁ (function_of_takeCached_eq_none honly) h₂
  have hdiffer : Differ g ds (memberFunctions (.of b) ms₁) (memberFunctions (.of b) ms₂)
      ((r₁ ++ .function (.refused g ds) :: r₂).flatMap NewMember.outcomes)
      ((r₁ ++ .function (.untouched g) :: r₂).flatMap NewMember.outcomes) := by
    rw [List.flatMap_append, List.flatMap_append, List.flatMap_cons, List.flatMap_cons]
    have halone := (Differ.alone g ds).extend (outcomes_of_members h₁) (outcomes_of_members h₂)
    rw [List.append_nil] at halone
    exact halone
  refine ⟨⟨Position.blockWith b (ms₁ ++ .function g :: ms₂), r₁ ++ .function (.untouched g) :: r₂⟩,
    ?_, ?_, ?_, hdiffer⟩
  · rw [block]
    exact congrArg (Option.map _) hjoin
  · simp only [NewBlock.tokens, List.flatMap_append, List.flatMap_cons]
    rfl
  · rw [NewBlock.holders_eq, NewBlock.holders_eq]
    exact hdiffer.holders_eq

/-- In place of an item of a module another one that declares the same names, leaves the same names
behind and has the same code changes nothing but its own outcomes. -/
theorem module_of_item {head : ModuleHead} {is₁ is₂ : List Item} {i i' : Item} {m : NewModule}
    {before after : List (Option Owner × Function)} (hdeclares : i.declares = i'.declares)
    (hitem : ∀ names names' j, item scope names i = some (j, names') →
      ∃ j', item scope names i' = some (j', names') ∧ j'.tokens = j.tokens ∧
        j'.holders = j.holders ∧ Differ g ds before after j.outcomes j'.outcomes)
    (h : module scope head (is₁ ++ i :: is₂) = some m) :
    ∃ m', module scope head (is₁ ++ i' :: is₂) = some m' ∧ m'.tokens = m.tokens ∧
      Differ g ds (is₁.flatMap itemFunctions ++ before) (after ++ is₂.flatMap itemFunctions)
        m.outcomes m'.outcomes := by
  obtain ⟨⟨r, names'⟩, hr, rfl⟩ := Option.map_eq_some_iff.mp h
  obtain ⟨r₁, names₁, j, names₂, r₂, h₁, hj, h₂, rfl⟩ := items_split hr
  obtain ⟨j', hj', htokens, hholders, hdiffer⟩ := hitem _ _ _ hj
  have hnames : Names.ofItems (is₁ ++ i :: is₂) = Names.ofItems (is₁ ++ i' :: is₂) := by
    simp only [Names.ofItems, Names.reserveItems, List.flatMap_append, List.flatMap_cons, hdeclares]
  rw [hnames] at h₁
  refine ⟨⟨head, r₁ ++ j' :: r₂⟩, ?_, ?_, ?_⟩
  · rw [module, items_join h₁ hj' h₂]
    rfl
  · simp only [NewModule.tokens, List.flatMap_append, List.flatMap_cons, htokens, hholders]
  · simp only [NewModule.outcomes, List.flatMap_append, List.flatMap_cons]
    exact hdiffer.extend (outcomes_of_items h₁) (outcomes_of_items h₂)

/-- A scope with a refused function has the same code as the scope without the attribute, and all
other functions have the same outcomes. -/
theorem treat_of_refusal {p : Position} {t : Treated} (htake : f.takeCached = some (a, g))
    (honly : g.takeCached = none) (hrefused : refusal? a g p.owner? = some ds)
    (ht : treat scope (p.fill f) = some t) :
    ∃ t', treat scope (p.fill g) = some t' ∧ t'.tokens = t.tokens ∧
      Differ g ds p.before p.after t.outcomes t'.outcomes := by
  have hname : f.signature.name.name = g.signature.name.name := by
    rw [(takeCached_eq_some htake).1]
  cases p with
  | item head is₁ is₂ =>
      obtain ⟨m, hm, rfl⟩ := Option.map_eq_some_iff.mp ht
      have hitem : ∀ names names' j, item scope names (.function f) = some (j, names') →
          ∃ j', item scope names (.function g) = some (j', names') ∧ j'.tokens = j.tokens ∧
            j'.holders = j.holders ∧ Differ g ds [] [] j.outcomes j'.outcomes := by
        intro names names' j hj
        have hfunction : function scope none names f = some (.refused g ds, names) :=
          function_of_refusal htake hrefused
        rw [item, hfunction] at hj
        obtain ⟨rfl, rfl⟩ := Prod.mk.inj (Option.some.inj hj)
        refine ⟨.function (.untouched g), ?_, rfl, rfl, Differ.alone g ds⟩
        rw [item, function_of_takeCached_eq_none honly]
        rfl
      have hdeclares : (Item.function f).declares = (Item.function g).declares :=
        congrArg ([·]) hname
      obtain ⟨m', hm', htokens, hdiffer⟩ := module_of_item hdeclares hitem hm
      rw [List.append_nil] at hdiffer
      refine ⟨⟨m'.outcomes, m'.tokens⟩, ?_, htokens, hdiffer⟩
      exact Option.map_eq_some_iff.mpr ⟨m', hm', rfl⟩
  | memberInModule head is₁ b ms₁ ms₂ is₂ =>
      obtain ⟨m, hm, rfl⟩ := Option.map_eq_some_iff.mp ht
      have hitem : ∀ names names' j,
          item scope names (.block (Position.blockWith b (ms₁ ++ .function f :: ms₂))) =
            some (j, names') →
          ∃ j', item scope names (.block (Position.blockWith b (ms₁ ++ .function g :: ms₂))) =
              some (j', names') ∧ j'.tokens = j.tokens ∧ j'.holders = j.holders ∧
            Differ g ds (memberFunctions (.of b) ms₁) (memberFunctions (.of b) ms₂) j.outcomes
              j'.outcomes := by
        intro names names' j hj
        obtain ⟨⟨r, new⟩, hr, heq⟩ := Option.map_eq_some_iff.mp hj
        obtain ⟨rfl, rfl⟩ := Prod.mk.inj heq
        obtain ⟨r', hr', htokens, hholders, hdiffer⟩ := block_of_refusal htake honly hrefused hr
        exact ⟨.block r', Option.map_eq_some_iff.mpr ⟨_, hr', rfl⟩, htokens, hholders, hdiffer⟩
      have hdeclares :
          (Item.block (Position.blockWith b (ms₁ ++ .function f :: ms₂))).declares =
            (Item.block (Position.blockWith b (ms₁ ++ .function g :: ms₂))).declares := rfl
      obtain ⟨m', hm', htokens, hdiffer⟩ := module_of_item hdeclares hitem hm
      refine ⟨⟨m'.outcomes, m'.tokens⟩, ?_, htokens, hdiffer⟩
      exact Option.map_eq_some_iff.mpr ⟨m', hm', rfl⟩
  | member b ms₁ ms₂ =>
      obtain ⟨⟨r, names'⟩, hr, rfl⟩ := Option.map_eq_some_iff.mp ht
      have hnames : blockNames (Position.blockWith b (ms₁ ++ .function f :: ms₂)) =
          blockNames (Position.blockWith b (ms₁ ++ .function g :: ms₂)) := by
        have hmembers : Names.ofMembers (ms₁ ++ .function f :: ms₂) =
            Names.ofMembers (ms₁ ++ .function g :: ms₂) := by
          simp only [Names.ofMembers, List.flatMap_append, List.flatMap_cons, Names.memberNames,
            hname]
        simp only [blockNames, Position.blockWith, hmembers]
        rfl
      rw [hnames] at hr
      obtain ⟨r', hr', htokens, hholders, hdiffer⟩ := block_of_refusal htake honly hrefused hr
      refine ⟨⟨r'.outcomes, r'.holders.flatMap Holder.tokens ++ r'.tokens⟩, ?_, ?_, hdiffer⟩
      · exact Option.map_eq_some_iff.mpr ⟨_, hr', rfl⟩
      · simp only [htokens, hholders]

/-- A scope with a function that is refused, whatever names are taken, is treated as the scope in
which the attribute of the function is deleted: its code and its holders are the same, and so are
the outcomes of the other functions. Its diagnostics are those of the functions before in source
order, of the function, and of the functions after; the other scope has the same ones but for those
of the function. -/
theorem refusal_disturbs_nothing (scope : ScopeArgs) (p : Position) (f g : Function) (a : Attribute)
    (ds : List Diagnostic) (names : Names) (t : Treated) (htake : f.takeCached = some (a, g))
    (honly : g.takeCached = none)
    (hrefused : memoize scope a g names p.owner? = .error (.refused ds))
    (ht : treat scope (p.fill f) = some t) :
    ∃ t', treat scope (p.fill g) = some t' ∧ t'.tokens = t.tokens ∧ t'.holders = t.holders ∧
      Differ g ds p.before p.after t.outcomes t'.outcomes ∧
      t.diagnostics = p.before.flatMap complaints ++ (ds ++ p.after.flatMap complaints) ∧
      t'.diagnostics = p.before.flatMap complaints ++ p.after.flatMap complaints ∧
      (∀ ts, Syntax.parseItem? ts = some (p.fill f) →
        expandWith scope ts = some (withErrors t.tokens t.diagnostics)) ∧
      ∀ ts, Syntax.parseItem? ts = some (p.fill g) →
        expandWith scope ts = some (withErrors t.tokens t'.diagnostics) := by
  obtain ⟨t', ht', htokens, hdiffer⟩ :=
    treat_of_refusal htake honly (memoize_eq_refused_iff.mp hrefused) ht
  refine ⟨t', ht', htokens, hdiffer.holders_eq, hdiffer, hdiffer.diagnostics_eq.1,
    hdiffer.diagnostics_eq.2, fun ts hts => expandWith_of_treat hts ht, fun ts hts => ?_⟩
  rw [← htokens]
  exact expandWith_of_treat hts ht'

/-- A module with a function that is refused between two that are memoized. -/
def mixedModule : String :=
  "mod m \x7b #[cached] fn first() -> u8 \x7b 1 \x7d " ++
    "#[cached] fn mixed(x: impl Copy) -> u8 \x7b 2 \x7d " ++
    "#[cached] fn last() -> u8 \x7b 3 \x7d \x7d"

/-- The place of the function between two items of a module. -/
def middle? (source : String) : Option (Position × Function) :=
  match readModule? source with
  | some (head, [i, .function f, j]) => some (.item head [i] [j], f)
  | _ => none

/-- The other functions of such a module keep their holders, and the diagnostic of the function is
the only one. -/
theorem refusal_disturbs_nothing_between :
    ∃ p f a g ds t t', middle? mixedModule = some (p, f) ∧ f.takeCached = some (a, g) ∧
      g.takeCached = none ∧ memoize ⟨none⟩ a g .empty p.owner? = .error (.refused ds) ∧
      ds.map Diagnostic.message = [Refusal.implTrait.message] ∧
      treat ⟨none⟩ (p.fill f) = some t ∧ treat ⟨none⟩ (p.fill g) = some t' ∧
      holderNames t.holders = ["__FIRST_CACHE_0", "__LAST_CACHE_0"] ∧
      t'.tokens = t.tokens ∧ t'.holders = t.holders ∧
      t.diagnostics = ds ∧ t'.diagnostics = [] := by
  have hrun : (middle? mixedModule).bind (fun q =>
      q.2.takeCached.bind fun r =>
        (refusal? r.1 r.2 q.1.owner?).bind fun ds =>
          (treat ⟨none⟩ (q.1.fill q.2)).map fun t =>
            (r.2.takeCached.isNone, ds.map Diagnostic.message, holderNames t.holders,
              (q.1.before.flatMap complaints).length, (q.1.after.flatMap complaints).length)) =
      some (true, [Refusal.implTrait.message], ["__FIRST_CACHE_0", "__LAST_CACHE_0"], 0, 0) := by
    decide +kernel
  obtain ⟨⟨p, f⟩, hmiddle, hrun⟩ := Option.bind_eq_some_iff.mp hrun
  obtain ⟨⟨a, g⟩, htake, hrun⟩ := Option.bind_eq_some_iff.mp hrun
  obtain ⟨ds, hrefusal, hrun⟩ := Option.bind_eq_some_iff.mp hrun
  obtain ⟨t, ht, hrun⟩ := Option.map_eq_some_iff.mp hrun
  simp only [Prod.mk.injEq, List.length_eq_zero_iff] at hrun
  obtain ⟨honly, hmessages, hholders, hbefore, hafter⟩ := hrun
  have honly := Option.isNone_iff_eq_none.mp honly
  have hrefused : memoize ⟨none⟩ a g .empty p.owner? = .error (.refused ds) :=
    memoize_eq_refused_iff.mpr hrefusal
  obtain ⟨t', ht', htokens, hsame, -, hdiagnostics, hdiagnostics', -⟩ :=
    refusal_disturbs_nothing ⟨none⟩ p f g a ds .empty t htake honly hrefused ht
  refine ⟨p, f, a, g, ds, t, t', hmiddle, htake, honly, hrefused, hmessages, ht, ht', hholders,
    htokens, hsame, ?_, ?_⟩
  · rw [hdiagnostics, hbefore, hafter, List.append_nil, List.nil_append]
  · rw [hdiagnostics', hbefore, hafter, List.append_nil]

end Memoize.Scope
