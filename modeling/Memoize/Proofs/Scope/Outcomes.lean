import Memoize.Proofs.Function.Parts
import Memoize.Proofs.Scope.Placement

/-!
# Outcomes in a scope

What becomes of each function of a scope (`function_cases`). A refusal depends on the function, its
attribute and its owner only, not on the names that are taken before (`memoize_eq_refused_iff`), so
the diagnostics of a scope are those of its functions one after the other
(`outcomes_of_items`, `outcomes_of_members`).
-/

namespace Memoize.Scope

variable {scope : ScopeArgs} {owner? : Option Owner} {names names' : Names}

/-! ### One function -/

/-- Why a function with an attribute is refused, if it is. -/
def refusal? (a : Attribute) (f : Function) (owner? : Option Owner) : Option (List Diagnostic) :=
  match a.arguments with
  | .error d => some [d]
  | .ok ts =>
    match CacheArgs.parse ts with
    | .error fs => some (fs.map ArgumentFault.diagnostic)
    | .ok args =>
      match Memoized.accept args f.signature owner? with
      | .error ds => some ds
      | .ok _ => none

/-- A function of a scope is refused whatever names are taken and whatever the arguments of the
scope are. -/
theorem memoize_eq_refused_iff {a : Attribute} {f : Function} {ds : List Diagnostic} :
    memoize scope a f names owner? = .error (.refused ds) ↔ refusal? a f owner? = some ds := by
  unfold memoize refusal?
  cases a.arguments with
  | error d => simp
  | ok ts =>
      cases hparse : CacheArgs.parse ts with
      | error fs => simp [hparse]
      | ok args =>
          simp only [hparse, Memoized.parts_eq_refused_iff]
          -- The path to the runtime plays no part in whether a function is accepted.
          change Memoized.accept args f.signature owner? = .error ds ↔ _
          cases Memoized.accept args f.signature owner? with
          | error ds' => simp
          | ok p => simp

/-- The diagnostics of a function, which stands in a block of the owner if there is one. -/
def complaints (p : Option Owner × Function) : List Diagnostic :=
  match p.2.takeCached with
  | none => []
  | some (a, g) => (refusal? a g p.1).getD []

/-- What becomes of a function: it is left as it is, it is memoized, or it is refused; only the
second changes the names. -/
theorem function_cases {f : Function} {o : Outcome}
    (h : function scope owner? names f = some (o, names')) :
    (f.takeCached = none ∧ o = .untouched f ∧ names' = names) ∨
      (∃ a g m, f.takeCached = some (a, g) ∧ memoize scope a g names owner? = .ok (m, names') ∧
        o = .memoized (.of g m)) ∨
      ∃ a g ds, f.takeCached = some (a, g) ∧ refusal? a g owner? = some ds ∧
        o = .refused g ds ∧ names' = names := by
  unfold function at h
  split at h
  · rename_i hnone
    obtain ⟨rfl, rfl⟩ := Prod.mk.inj (Option.some.inj h)
    exact Or.inl ⟨hnone, rfl, rfl⟩
  · rename_i a g htake
    split at h
    · rename_i m new hok
      obtain ⟨rfl, rfl⟩ := Prod.mk.inj (Option.some.inj h)
      exact Or.inr (Or.inl ⟨a, g, m, htake, hok, rfl⟩)
    · rename_i ds hrefused
      obtain ⟨rfl, rfl⟩ := Prod.mk.inj (Option.some.inj h)
      exact Or.inr (Or.inr ⟨a, g, ds, htake, memoize_eq_refused_iff.mp hrefused, rfl, rfl⟩)
    · cases h

/-- A function that asks for no caching is left as it is. -/
theorem function_of_takeCached_eq_none {f : Function} (h : f.takeCached = none) :
    function scope owner? names f = some (.untouched f, names) := by
  simp only [function, h]

/-- A function that is refused loses its attribute and takes no name. -/
theorem function_of_refusal {f g : Function} {a : Attribute} {ds : List Diagnostic}
    (htake : f.takeCached = some (a, g)) (h : refusal? a g owner? = some ds) :
    function scope owner? names f = some (.refused g ds, names) := by
  simp only [function, htake, memoize_eq_refused_iff.mpr h]

/-- The diagnostics of a function do not depend on the names that are taken. -/
theorem diagnostics_eq_complaints {f : Function} {o : Outcome}
    (h : function scope owner? names f = some (o, names')) :
    o.diagnostics = complaints (owner?, f) := by
  rcases function_cases h with
    ⟨hnone, rfl, -⟩ | ⟨a, g, m, htake, hok, rfl⟩ | ⟨a, g, ds, htake, hrefused, rfl, -⟩
  · simp only [complaints, hnone, Outcome.diagnostics]
  · have hrefusal : refusal? a g owner? = none := by
      rw [Option.eq_none_iff_forall_ne_some]
      intro ds hds
      rw [memoize_eq_refused_iff.mpr hds] at hok
      cases hok
    simp only [complaints, htake, hrefusal, Outcome.diagnostics, Option.getD_none]
  · simp only [complaints, htake, hrefused, Outcome.diagnostics, Option.getD_some]

/-! ### Functions in order -/

/-- The methods among members of a block, each with the owner. -/
def memberFunctions (owner : Owner) (ms : List Member) : List (Option Owner × Function) :=
  ms.filterMap fun
    | .function f => some (some owner, f)
    | .other _ _ => none

/-- The functions of an item: itself, or the methods of a block. Those of a nested module belong to
another scope. -/
def itemFunctions : Item → List (Option Owner × Function)
  | .function f => [(none, f)]
  | .block b => memberFunctions (.of b) b.members
  | .module _ _ => []
  | .other _ _ _ => []

/-- What became of the methods among members. -/
def NewMember.outcomes : NewMember → List Outcome
  | function o => [o]
  | kept _ => []

/-- What became of the functions of an item. -/
def NewItem.outcomes : NewItem → List Outcome
  | function o => [o]
  | block b => b.members.flatMap NewMember.outcomes
  | kept _ => []

/-- What became of the methods of a block. -/
def NewBlock.outcomes (b : NewBlock) : List Outcome := b.members.flatMap NewMember.outcomes

/-- What became of the functions of a module. -/
def NewModule.outcomes (m : NewModule) : List Outcome := m.items.flatMap NewItem.outcomes

/-- The holders of a block are those of its methods. -/
theorem NewBlock.holders_eq (b : NewBlock) : b.holders = b.outcomes.filterMap Outcome.holder? := by
  obtain ⟨b, ms⟩ := b
  simp only [holders, outcomes]
  induction ms with
  | nil => rfl
  | cons m rest ih =>
      rw [List.flatMap_cons, List.filterMap_append, ← ih]
      cases m with
      | kept m => rfl
      | function o => cases ho : o.holder? <;> simp [NewMember.holder?, NewMember.outcomes, ho]

/-- The diagnostics of a block are those of its methods. -/
theorem NewBlock.diagnostics_eq (b : NewBlock) :
    b.diagnostics = b.outcomes.flatMap Outcome.diagnostics := by
  simp only [diagnostics, outcomes, List.flatMap_assoc]
  congr 1
  funext m
  cases m with
  | kept m => rfl
  | function o => simp [NewMember.diagnostics, NewMember.outcomes]

/-- The holders of an item are those of its functions. -/
theorem NewItem.holders_eq (i : NewItem) : i.holders = i.outcomes.filterMap Outcome.holder? := by
  cases i with
  | function o => cases ho : o.holder? <;> simp [holders, outcomes, ho]
  | block b => exact b.holders_eq
  | kept i => rfl

/-- The diagnostics of an item are those of its functions. -/
theorem NewItem.diagnostics_eq (i : NewItem) :
    i.diagnostics = i.outcomes.flatMap Outcome.diagnostics := by
  cases i with
  | function o => simp [diagnostics, outcomes]
  | block b => exact b.diagnostics_eq
  | kept i => rfl

/-- The holders of a module are those of its functions. -/
theorem NewModule.holders_eq (m : NewModule) :
    m.holders = m.outcomes.filterMap Outcome.holder? := by
  simp only [holders, outcomes, List.filterMap_flatMap]
  exact congrArg (m.items.flatMap ·) (funext NewItem.holders_eq)

/-- The diagnostics of a module are those of its functions. -/
theorem NewModule.diagnostics_eq (m : NewModule) :
    m.diagnostics = m.outcomes.flatMap Outcome.diagnostics := by
  simp only [diagnostics, outcomes, List.flatMap_assoc]
  exact congrArg (m.items.flatMap ·) (funext NewItem.diagnostics_eq)

/-! ### Runs in two parts -/

/-- Treating members is treating the first of them and then the others. -/
theorem members_append (owner : Owner) (names : Names) (ms₁ ms₂ : List Member) :
    members scope owner names (ms₁ ++ ms₂) =
      (members scope owner names ms₁).bind fun r₁ =>
        (members scope owner r₁.2 ms₂).map fun r₂ => (r₁.1 ++ r₂.1, r₂.2) := by
  induction ms₁ generalizing names with
  | nil => simp [members]
  | cons m ms₁ ih =>
      cases m with
      | other n p =>
          simp only [List.cons_append, members, ih]
          cases members scope owner names ms₁ with
          | none => rfl
          | some r₁ => cases h₂ : members scope owner r₁.2 ms₂ <;> simp [h₂]
      | function f =>
          simp only [List.cons_append, members]
          cases function scope (some owner) names f with
          | none => rfl
          | some r =>
              obtain ⟨o, names₁⟩ := r
              simp only [ih]
              cases members scope owner names₁ ms₁ with
              | none => rfl
              | some r₁ => cases h₂ : members scope owner r₁.2 ms₂ <;> simp [h₂]

/-- Treating items is treating the first of them and then the others. -/
theorem items_append (names : Names) (is₁ is₂ : List Item) :
    items scope names (is₁ ++ is₂) =
      (items scope names is₁).bind fun r₁ =>
        (items scope r₁.2 is₂).map fun r₂ => (r₁.1 ++ r₂.1, r₂.2) := by
  induction is₁ generalizing names with
  | nil => simp [items]
  | cons i is₁ ih =>
      simp only [List.cons_append, items]
      cases item scope names i with
      | none => rfl
      | some r =>
          obtain ⟨j, names₁⟩ := r
          simp only [ih]
          cases items scope names₁ is₁ with
          | none => rfl
          | some r₁ => cases h₂ : items scope r₁.2 is₂ <;> simp [h₂]

/-- The parts of a run over members with a method among them. -/
theorem members_split {owner : Owner} {ms₁ ms₂ : List Member} {f : Function} {r : List NewMember}
    (h : members scope owner names (ms₁ ++ .function f :: ms₂) = some (r, names')) :
    ∃ r₁ names₁ o names₂ r₂, members scope owner names ms₁ = some (r₁, names₁) ∧
      function scope (some owner) names₁ f = some (o, names₂) ∧
      members scope owner names₂ ms₂ = some (r₂, names') ∧ r = r₁ ++ .function o :: r₂ := by
  rw [members_append] at h
  obtain ⟨⟨r₁, names₁⟩, h₁, h⟩ := Option.bind_eq_some_iff.mp h
  obtain ⟨⟨r', new⟩, hrest, heq⟩ := Option.map_eq_some_iff.mp h
  obtain ⟨rfl, rfl⟩ := Prod.mk.inj heq
  obtain ⟨o, names₂, r₂, ho, h₂, rfl⟩ := members_cons hrest
  exact ⟨r₁, names₁, o, names₂, r₂, h₁, ho, h₂, rfl⟩

/-- The parts of a run over members put together. -/
theorem members_join {owner : Owner} {ms₁ ms₂ : List Member} {f : Function} {r₁ r₂ : List NewMember}
    {o : Outcome} {names₁ names₂ : Names} (h₁ : members scope owner names ms₁ = some (r₁, names₁))
    (ho : function scope (some owner) names₁ f = some (o, names₂))
    (h₂ : members scope owner names₂ ms₂ = some (r₂, names')) :
    members scope owner names (ms₁ ++ .function f :: ms₂) =
      some (r₁ ++ .function o :: r₂, names') := by
  rw [members_append, h₁]
  simp only [Option.bind_some, members, ho, h₂, Option.map_some]

/-- The parts of a run over items with a given one among them. -/
theorem items_split {is₁ is₂ : List Item} {i : Item} {r : List NewItem}
    (h : items scope names (is₁ ++ i :: is₂) = some (r, names')) :
    ∃ r₁ names₁ j names₂ r₂, items scope names is₁ = some (r₁, names₁) ∧
      item scope names₁ i = some (j, names₂) ∧
      items scope names₂ is₂ = some (r₂, names') ∧ r = r₁ ++ j :: r₂ := by
  rw [items_append] at h
  obtain ⟨⟨r₁, names₁⟩, h₁, h⟩ := Option.bind_eq_some_iff.mp h
  obtain ⟨⟨r', new⟩, hrest, heq⟩ := Option.map_eq_some_iff.mp h
  obtain ⟨rfl, rfl⟩ := Prod.mk.inj heq
  obtain ⟨j, names₂, r₂, hj, h₂, rfl⟩ := items_cons hrest
  exact ⟨r₁, names₁, j, names₂, r₂, h₁, hj, h₂, rfl⟩

/-- The parts of a run over items put together. -/
theorem items_join {is₁ is₂ : List Item} {i : Item} {r₁ r₂ : List NewItem} {j : NewItem}
    {names₁ names₂ : Names} (h₁ : items scope names is₁ = some (r₁, names₁))
    (hj : item scope names₁ i = some (j, names₂))
    (h₂ : items scope names₂ is₂ = some (r₂, names')) :
    items scope names (is₁ ++ i :: is₂) = some (r₁ ++ j :: r₂, names') := by
  rw [items_append, h₁]
  simp only [Option.bind_some, items, hj, h₂, Option.map_some]

/-! ### Outcomes and diagnostics of runs -/

/-- Each method of a block has an outcome, and the diagnostics are theirs. -/
theorem outcomes_of_members {owner : Owner} {ms : List Member} {r : List NewMember}
    (h : members scope owner names ms = some (r, names')) :
    (r.flatMap NewMember.outcomes).length = (memberFunctions owner ms).length ∧
      (r.flatMap NewMember.outcomes).flatMap Outcome.diagnostics =
        (memberFunctions owner ms).flatMap complaints := by
  induction ms generalizing names r with
  | nil =>
      obtain ⟨rfl, rfl⟩ := Prod.mk.inj (Option.some.inj h)
      exact ⟨rfl, rfl⟩
  | cons m rest ih =>
      cases m with
      | other n p =>
          obtain ⟨⟨r', new⟩, hr, heq⟩ := Option.map_eq_some_iff.mp h
          obtain ⟨rfl, rfl⟩ := Prod.mk.inj heq
          have htail := ih hr
          exact htail
      | function f =>
          obtain ⟨o, names₁, r₂, ho, h₂, rfl⟩ := members_cons h
          obtain ⟨hlength, hdiagnostics⟩ := ih h₂
          constructor
          · simp [memberFunctions, NewMember.outcomes] at hlength ⊢
            exact hlength
          · change o.diagnostics ++ (r₂.flatMap NewMember.outcomes).flatMap Outcome.diagnostics =
              complaints (some owner, f) ++ (memberFunctions owner rest).flatMap complaints
            rw [hdiagnostics, diagnostics_eq_complaints ho]

/-- Each function of an item has an outcome, and the diagnostics are theirs. -/
theorem outcomes_of_item {i : Item} {j : NewItem} (h : item scope names i = some (j, names')) :
    j.outcomes.length = (itemFunctions i).length ∧
      j.outcomes.flatMap Outcome.diagnostics = (itemFunctions i).flatMap complaints := by
  cases i with
  | function f =>
      obtain ⟨⟨o, new⟩, ho, heq⟩ := Option.map_eq_some_iff.mp h
      obtain ⟨rfl, rfl⟩ := Prod.mk.inj heq
      refine ⟨rfl, ?_⟩
      simp only [NewItem.outcomes, itemFunctions, List.flatMap_singleton]
      exact diagnostics_eq_complaints ho
  | block b =>
      obtain ⟨⟨b', new⟩, hb, heq⟩ := Option.map_eq_some_iff.mp h
      obtain ⟨rfl, rfl⟩ := Prod.mk.inj heq
      obtain ⟨⟨ms, new⟩, hms, heq⟩ := Option.map_eq_some_iff.mp hb
      obtain ⟨rfl, rfl⟩ := Prod.mk.inj heq
      exact outcomes_of_members hms
  | module head is =>
      obtain ⟨rfl, rfl⟩ := Prod.mk.inj (Option.some.inj h)
      exact ⟨rfl, rfl⟩
  | other names further p =>
      obtain ⟨rfl, rfl⟩ := Prod.mk.inj (Option.some.inj h)
      exact ⟨rfl, rfl⟩

/-- Each function of a module has an outcome, and the diagnostics are theirs. -/
theorem outcomes_of_items {is : List Item} {r : List NewItem}
    (h : items scope names is = some (r, names')) :
    (r.flatMap NewItem.outcomes).length = (is.flatMap itemFunctions).length ∧
      (r.flatMap NewItem.outcomes).flatMap Outcome.diagnostics =
        (is.flatMap itemFunctions).flatMap complaints := by
  induction is generalizing names r with
  | nil =>
      obtain ⟨rfl, rfl⟩ := Prod.mk.inj (Option.some.inj h)
      exact ⟨rfl, rfl⟩
  | cons i rest ih =>
      obtain ⟨j, names₁, r₂, hj, h₂, rfl⟩ := items_cons h
      obtain ⟨hlength, hdiagnostics⟩ := ih h₂
      obtain ⟨hlength', hdiagnostics'⟩ := outcomes_of_item hj
      simp only [List.flatMap_cons, List.flatMap_append, List.length_append]
      exact ⟨by rw [hlength, hlength'], by rw [hdiagnostics, hdiagnostics']⟩

end Memoize.Scope
