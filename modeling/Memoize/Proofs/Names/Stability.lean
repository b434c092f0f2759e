import Memoize.Proofs.Names.Runs

/-!
# Names that other functions leave alone

The base of the names for a function tells its name in upper case (`base_inj`), so a name allocated
for one function is never a candidate for a function with another name in upper case. Main
statement: `allocations_independent`.

## Implementation notes

What an allocation depends on is `SameTaken`: of the taken names only those of its own base matter.
Allocators with the same owner that agree on them go on to do so in runs that differ in allocations
for other functions (`performAll_sameTaken`). The owner stays in these runs: with owners that change
in between, functions with different names can come to have the same base.
-/

namespace Memoize

namespace Names

variable {names names' next next' : Names} {f g : String}

/-! ### What a name depends on -/

/-- The bases for one owner tell the names of functions in upper case. -/
theorem base_inj : names.base f = names.base g ↔
    Text.upper (unraw f) = Text.upper (unraw g) := by
  unfold base
  cases names.owner with
  | none => simp [String.append_assoc, ← String.toList_inj]
  | some owner => simp [String.append_assoc, ← String.toList_inj]

/-- The same numbered names of a base are taken. -/
def SameTaken (base : String) (names names' : Names) : Prop :=
  ∀ n, numbered base n ∈ names.taken ↔ numbered base n ∈ names'.taken

/-- The least free number of a base depends on which numbered names of the base are taken. -/
theorem freshNumber_congr {base : String} (h : SameTaken base names names') :
    names.freshNumber base = names'.freshNumber base := by
  obtain ⟨hfree, hleast⟩ := names.freshNumber_spec base
  obtain ⟨hfree', hleast'⟩ := names'.freshNumber_spec base
  rcases Nat.lt_trichotomy (names.freshNumber base) (names'.freshNumber base) with hlt | heq | hlt
  · exact absurd ((h _).mpr (hleast' _ hlt)) hfree
  · exact heq
  · exact absurd ((h _).mp (hleast _ hlt)) hfree'

/-- The name given for a function depends on its base and on which numbered names of the base are
taken. -/
theorem allocate_name_congr (hbase : names.base f = names'.base g)
    (h : SameTaken (names.base f) names names') :
    (names.allocate f).map Prod.fst = (names'.allocate g).map Prod.fst := by
  have hfresh : names.fresh f = names'.fresh g := by
    rw [fresh, fresh, freshNumber_congr h, hbase]
  simp only [allocate, hfresh]
  split <;> rfl

/-- An allocation leaves the names of other bases as they are. -/
theorem sameTaken_of_allocate {base x : String} (h : names.allocate g = some (x, next))
    (hbase : names.base g ≠ base) : SameTaken base names next := by
  obtain ⟨rfl, rfl⟩ := allocate_eq_some h
  intro n
  rw [mem_take, numbered_inj]
  exact ⟨Or.inr, fun h => h.resolve_left fun heq => hbase heq.1.symm⟩

/-! ### Two allocations -/

/-- The names for two functions, allocated in this order, and the names that are taken then. -/
def allocateBoth (names : Names) (f g : String) : Option (String × String × Finset String) :=
  (names.allocate f).bind fun r =>
    (r.2.allocate g).map fun r' => (r.1, r'.1, r'.2.taken.toFinset)

/-- For functions with different names in upper case the second allocation gives the name that the
first would have given, if there is one. -/
theorem allocate_of_allocate (hfg : Text.upper (unraw f) ≠ Text.upper (unraw g)) {x : String}
    (h : names.allocate f = some (x, next)) :
    next.allocate g = (names.allocate g).map fun r => (r.1, next.take r.1) := by
  have hbase : names.base f ≠ names.base g := fun heq => hfg (base_inj.mp heq)
  have howner : names.base g = next.base g := by
    obtain ⟨-, rfl⟩ := allocate_eq_some h
    exact congrFun (base_congr (owner_take _ _).symm) g
  have hname := allocate_name_congr howner (sameTaken_of_allocate h hbase)
  cases hg : names.allocate g with
  | none => simpa [hg] using hname
  | some r =>
      cases hg' : next.allocate g with
      | none => simp [hg, hg'] at hname
      | some r' =>
          have heq : r.1 = r'.1 := by simpa [hg, hg'] using hname
          obtain ⟨-, htake⟩ := allocate_eq_some hg'
          rw [Option.map_some, heq, ← htake]

/-- Allocations for functions with different names in upper case may be swapped. -/
theorem allocateBoth_comm (hfg : Text.upper (unraw f) ≠ Text.upper (unraw g)) :
    names.allocateBoth f g = (names.allocateBoth g f).map fun r => (r.2.1, r.1, r.2.2) := by
  unfold allocateBoth
  cases hf : names.allocate f with
  | none =>
      cases hg : names.allocate g with
      | none => rfl
      | some r => simp [allocate_of_allocate hfg.symm hg, hf]
  | some r =>
      cases hg : names.allocate g with
      | none => simp [allocate_of_allocate hfg hf, hg]
      | some r' =>
          have htaken : (r.2.take r'.1).taken.toFinset = (r'.2.take r.1).taken.toFinset := by
            obtain ⟨-, hr⟩ := allocate_eq_some hf
            obtain ⟨-, hr'⟩ := allocate_eq_some hg
            ext y
            simp only [hr, hr', List.mem_toFinset, mem_take]
            exact or_left_comm
          simp [allocate_of_allocate hfg hf, allocate_of_allocate hfg.symm hg, hf, hg, htaken]

/-- Two functions with names get those that each of them would get alone. -/
theorem allocateBoth_eq_some (howner : names.HasNamedOwner) (hf : isSpelledName (unraw f) = true)
    (hg : isSpelledName (unraw g) = true) (hfg : Text.upper (unraw f) ≠ Text.upper (unraw g)) :
    names.allocateBoth f g = some (names.fresh f, names.fresh g,
      insert (names.fresh f) (insert (names.fresh g) names.taken.toFinset)) := by
  have haf := (allocates (nameable_of_isSpelledName howner hf)).allocate
  have hag := (allocates (nameable_of_isSpelledName howner hg)).allocate
  simp only [allocateBoth, haf, Option.bind_some, allocate_of_allocate hfg haf, hag,
    Option.map_some, Option.some.injEq, Prod.mk.injEq]
  refine ⟨rfl, rfl, ?_⟩
  ext y
  simp only [List.mem_toFinset, mem_take, Finset.mem_insert, fresh]
  exact or_left_comm

/-! ### Runs without the allocations for other functions -/

/-- An operation that leaves the owner. -/
def Operation.keepsOwner : Operation → Bool
  | .qualify _ => false
  | _ => true

/-- An allocation for the function or for one with the same name in upper case. -/
def Operation.allocatesFor (f : String) : Operation → Bool
  | .allocate g => Text.upper (unraw g) == Text.upper (unraw f)
  | _ => false

/-- An operation that is no allocation for a function with another name in upper case. -/
def Operation.concerns (f : String) : Operation → Bool
  | .allocate g => Operation.allocatesFor f (.allocate g)
  | _ => true

/-- The names that a run gives to a function and to those with the same name in upper case. -/
def givenTo (f : String) (ops : List Operation) (as : List Answer) : List String :=
  (ops.zip as).filterMap fun p => if p.1.allocatesFor f then p.2.name? else none

/-- Whether two allocators will give a function the same names. -/
structure Agree (f : String) (names names' : Names) : Prop where
  /-- Both have the same owner. -/
  owner : names.owner = names'.owner
  /-- In both the same names of the base are taken. -/
  taken : SameTaken (names.base f) names names'

/-- An operation that concerns a function gives it the same name by allocators that agree. -/
theorem name?_congr {op : Operation} {a a' : Answer} (h : Agree f names names')
    (hop : op.concerns f = true) (hperform : names.perform op = some (a, next))
    (hperform' : names'.perform op = some (a', next')) : a.name? = a'.name? := by
  cases op with
  | allocate g =>
      have hbase : names.base g = names.base f := base_inj.mpr (eq_of_beq hop)
      have htaken : SameTaken (names.base g) names names' := by
        rw [hbase]
        exact h.taken
      have hname := allocate_name_congr (congrFun (base_congr h.owner) g) htaken
      obtain ⟨r, hr, heq⟩ := Option.map_eq_some_iff.mp hperform
      obtain ⟨r', hr', heq'⟩ := Option.map_eq_some_iff.mp hperform'
      obtain ⟨rfl, -⟩ := Prod.mk.inj heq
      obtain ⟨rfl, -⟩ := Prod.mk.inj heq'
      simpa [hr, hr', Answer.name?] using hname
  | _ =>
      simp only [Names.perform, Option.some.injEq, Prod.mk.injEq] at hperform hperform'
      obtain ⟨rfl, -⟩ := hperform
      obtain ⟨rfl, -⟩ := hperform'
      rfl

/-- A proper operation that keeps the owner does so. -/
theorem owner_of_keepsOwner {op : Operation} (h : op.keepsOwner = true) (owner? : Option String) :
    op.ownerAfter owner? = owner? := by
  cases op with
  | qualify owner => cases h
  | _ => rfl

/-- Allocators that agree do so after an operation that concerns the function. -/
theorem Agree.perform {op : Operation} (h : Agree f names names') (howner : names.HasNamedOwner)
    (hproper : op.isProper = true) (hkeeps : op.keepsOwner = true) (hop : op.concerns f = true) :
    ∃ a a' next next', names.perform op = some (a, next) ∧ names'.perform op = some (a', next') ∧
      a.name? = a'.name? ∧ next.HasNamedOwner ∧ Agree f next next' := by
  have howner' : names'.HasNamedOwner := fun o ho => howner o (h.owner ▸ ho)
  obtain ⟨a, next, hperform, hnamed, hset, -, htaken⟩ := perform_proper howner hproper
  obtain ⟨a', next', hperform', -, hset', -, htaken'⟩ := perform_proper howner' hproper
  rw [owner_of_keepsOwner hkeeps] at hset hset'
  have hname := name?_congr h hop hperform hperform'
  refine ⟨a, a', next, next', hperform, hperform', hname, hnamed, ?_, fun n => ?_⟩
  · rw [hset, hset', h.owner]
  · rw [base_congr hset, htaken, htaken', h.taken n, hname]

/-- Allocators that agree do so after an allocation by the first for another function. -/
theorem Agree.allocate_other {op : Operation} (h : Agree f names names')
    (howner : names.HasNamedOwner) (hproper : op.isProper = true)
    (hop : ¬ op.concerns f = true) :
    ∃ a next, names.perform op = some (a, next) ∧ next.HasNamedOwner ∧ Agree f next names' := by
  cases op with
  | allocate g =>
      obtain ⟨a, next, hperform, hnamed, hset, -, -⟩ := perform_proper howner hproper
      have hbase : names.base g ≠ names.base f := fun heq => hop (beq_iff_eq.mpr (base_inj.mp heq))
      obtain ⟨r, hr, heq⟩ := Option.map_eq_some_iff.mp hperform
      obtain ⟨-, rfl⟩ := Prod.mk.inj heq
      refine ⟨a, r.2, hperform, hnamed, hset.trans h.owner, fun n => ?_⟩
      rw [base_congr hset, ← sameTaken_of_allocate hr hbase n]
      exact h.taken n
  | _ => exact absurd rfl hop

/-- Runs of allocators that agree, one with and one without the allocations for other functions. -/
theorem performAll_agree {ops : List Operation} (h : Agree f names names')
    (howner : names.HasNamedOwner) (hops : ∀ op ∈ ops, op.isProper = true ∧ op.keepsOwner = true) :
    ∃ as as' last last', names.performAll ops = some (as, last) ∧
      names'.performAll (ops.filter (·.concerns f)) = some (as', last') ∧
      givenTo f ops as = givenTo f (ops.filter (·.concerns f)) as' ∧ Agree f last last' := by
  induction ops generalizing names names' with
  | nil => exact ⟨[], [], names, names', rfl, rfl, rfl, h⟩
  | cons op ops ih =>
      obtain ⟨⟨hproper, hkeeps⟩, hrest⟩ := List.forall_mem_cons.mp hops
      by_cases hop : op.concerns f = true
      · obtain ⟨a, a', next, next', hperform, hperform', hname, hnamed, hagree⟩ :=
          h.perform howner hproper hkeeps hop
        obtain ⟨as, as', last, last', hrun, hrun', hgiven, hlast⟩ := ih hagree hnamed hrest
        refine ⟨a :: as, a' :: as', last, last', by simp [performAll, hperform, hrun],
          by simp [performAll, hop, hperform', hrun'], ?_, hlast⟩
        simp only [givenTo] at hgiven
        simp only [givenTo, List.filter_cons, hop, if_true, List.zip_cons_cons,
          List.filterMap_cons, hname, hgiven]
      · obtain ⟨a, next, hperform, hnamed, hagree⟩ := h.allocate_other howner hproper hop
        obtain ⟨as, as', last, last', hrun, hrun', hgiven, hlast⟩ := ih hagree hnamed hrest
        have hother : op.allocatesFor f = false := by
          cases op with
          | allocate g => exact Bool.eq_false_iff.mpr hop
          | _ => rfl
        refine ⟨a :: as, as', last, last', by simp [performAll, hperform, hrun],
          by simp [hop, hrun'], ?_, hlast⟩
        simp only [givenTo] at hgiven
        simp [givenTo, hop, hother, hgiven]

/-! ### Main statement -/

/-- **Names that other functions leave alone.** For functions with different names in upper case
no numbered name of one is one of the other, and allocations in either order give the same two
names, those that each function would get alone, and leave the same names taken. For one owner the
name given depends on the function's name in upper case and on which numbered names of its base are
taken. So in a run that keeps the owner, the allocations for functions with other names in upper
case can be left out without a change to the names that the function is given. -/
theorem allocations_independent :
    (∀ (names : Names) (f g : String), Text.upper (unraw f) ≠ Text.upper (unraw g) →
      (∀ m n, numbered (names.base f) m ≠ numbered (names.base g) n) ∧
      names.allocateBoth f g = (names.allocateBoth g f).map (fun r => (r.2.1, r.1, r.2.2)) ∧
      (names.HasNamedOwner → isSpelledName (unraw f) = true → isSpelledName (unraw g) = true →
        names.allocateBoth f g = some (names.fresh f, names.fresh g,
          insert (names.fresh f) (insert (names.fresh g) names.taken.toFinset)))) ∧
    (∀ (names names' : Names) (f f' : String), names.owner = names'.owner →
      Text.upper (unraw f) = Text.upper (unraw f') → SameTaken (names.base f) names names' →
      (names.allocate f).map Prod.fst = (names'.allocate f').map Prod.fst) ∧
    ∀ (names : Names) (f : String) (ops : List Operation), names.HasNamedOwner →
      (∀ op ∈ ops, op.isProper = true ∧ op.keepsOwner = true) →
      ∃ as as' last last', names.performAll ops = some (as, last) ∧
        names.performAll (ops.filter (·.concerns f)) = some (as', last') ∧
        givenTo f ops as = givenTo f (ops.filter (·.concerns f)) as' := by
  refine ⟨fun names f g hfg => ⟨?_, allocateBoth_comm hfg, ?_⟩, ?_, ?_⟩
  · intro m n heq
    exact hfg (base_inj.mp (numbered_inj.mp heq).1)
  · intro howner hf hg
    exact allocateBoth_eq_some howner hf hg hfg
  · intro names names' f f' howner hname htaken
    refine allocate_name_congr ?_ htaken
    rw [base_inj.mpr hname, base_congr howner]
  · intro names f ops howner hops
    have hagree : Agree f names names := ⟨rfl, fun _ => Iff.rfl⟩
    obtain ⟨as, as', last, last', hrun, hrun', hgiven, -⟩ := performAll_agree hagree howner hops
    exact ⟨as, as', last, last', hrun, hrun', hgiven⟩

/-- The names of a scope with one that looks like a holder. -/
def holderScope : Names := ⟨["__A_CACHE_0"], none⟩

/-- A run that names a function and another one whose name is a holder name in lower case. -/
def nestedRun : List Operation :=
  [.allocate "a_cache_0", .allocate "a", .reserve "__A_CACHE_2", .allocate "A_Cache_0",
    .allocate "a"]

/-- The two functions are named alike in both orders, and a run gives the one the same names with
and without the other. -/
theorem nested_names_independent :
    holderScope.allocateBoth "a" "a_cache_0" = some ("__A_CACHE_1", "__A_CACHE_0_CACHE_0",
        {"__A_CACHE_1", "__A_CACHE_0_CACHE_0", "__A_CACHE_0"}) ∧
      holderScope.allocateBoth "a" "a_cache_0" =
        (holderScope.allocateBoth "a_cache_0" "a").map (fun r => (r.2.1, r.1, r.2.2)) ∧
      (holderScope.allocate "a").map Prod.fst = (holderScope.allocate "r#A").map Prod.fst ∧
      ∃ as as' last last', holderScope.performAll nestedRun = some (as, last) ∧
        holderScope.performAll [.allocate "a", .reserve "__A_CACHE_2", .allocate "a"] =
          some (as', last') ∧
        givenTo "a" nestedRun as = ["__A_CACHE_1", "__A_CACHE_3"] := by
  have howner : holderScope.HasNamedOwner := by
    rintro _ ⟨⟩
  obtain ⟨hboth, hname, hrun⟩ := allocations_independent
  obtain ⟨-, hcomm, hsome⟩ := hboth holderScope "a" "a_cache_0" (ne_of_beq_false (by decide +kernel))
  obtain ⟨as, as', last, last', hall, hkept, -⟩ :=
    hrun holderScope "a" nestedRun howner (by decide +kernel)
  have hfilter : nestedRun.filter (·.concerns "a") =
      [.allocate "a", .reserve "__A_CACHE_2", .allocate "a"] := by
    have hother : (Text.upper (unraw "a_cache_0") == Text.upper (unraw "a")) = false := by
      decide +kernel
    have hother' : (Text.upper (unraw "A_Cache_0") == Text.upper (unraw "a")) = false := by
      decide +kernel
    simp [nestedRun, Operation.concerns, Operation.allocatesFor, hother, hother']
  have hgiven : (holderScope.performAll nestedRun).map (fun r => givenTo "a" nestedRun r.1) =
      some ["__A_CACHE_1", "__A_CACHE_3"] := by
    decide +kernel
  rw [hfilter] at hkept
  refine ⟨?_, hcomm, ?_, as, as', last, last', hall, hkept, ?_⟩
  · rw [hsome howner (by decide +kernel) (by decide +kernel)]
    decide +kernel
  · exact hname holderScope holderScope "a" "r#A" rfl (by decide +kernel) fun _ => Iff.rfl
  · rw [hall] at hgiven
    exact Option.some.inj hgiven

end Names

end Memoize
