import Mathlib.Data.Finset.Card
import Memoize.Names.Operation
import Memoize.Proofs.Names.Spelling

/-!
# Names over runs of an allocator

A run performs operations one after the other on the names of one scope. Every allocation in a run
ends and gives the first free name of its base, so the names that a run gives are new and differ
from each other. Main statement: `performAll_allocates`.

## Implementation notes

A number is searched for without a bound that is known before. `search` limits the turns, and
`search_eq` says for every limit whether the search has ended by then, so that the number of turns
can be spoken of (`Allocates.turns`).

A run stays in one scope: `isProper` leaves out the operations that make new names. It also asks
that functions have names and that owners consist of characters of names, without which there is no
name to give.
-/

namespace Memoize

namespace Names

/-! ### The search for a number -/

/-- The numbers from `n` on are tried, one a turn, until the name of one is not taken. The answer is
nothing if the turns do not suffice. -/
def search (names : Names) (base : String) : Nat → Nat → Option Nat
  | 0, _ => none
  | turns + 1, n =>
    if names.contains (numbered base n) then names.search base turns (n + 1) else some n

variable {names current next : Names} {f : String}

/-- Among the numbers up to the first free one, a search ends with this one or runs out of turns
before. -/
theorem search_eq (base : String) (turns : Nat) {n : Nat} (hn : n ≤ names.freshNumber base) :
    names.search base turns n =
      if names.freshNumber base < n + turns then some (names.freshNumber base) else none := by
  obtain ⟨hfree, hleast⟩ := names.freshNumber_spec base
  induction turns generalizing n with
  | zero => rw [search, if_neg (by omega)]
  | succ turns ih =>
      rw [search]
      rcases Nat.lt_or_eq_of_le hn with hlt | rfl
      · have hturns : n + 1 + turns = n + (turns + 1) := by omega
        rw [if_pos (by simpa [contains] using hleast n hlt), ih hlt, hturns]
      · rw [if_neg (by simpa [contains] using hfree), if_pos (by omega)]

/-- The first free number is at most the number of taken names. -/
theorem freshNumber_le_card (names : Names) (base : String) :
    names.freshNumber base ≤ names.taken.toFinset.card := by
  have hinj : Function.Injective (numbered base) := fun m n h => (numbered_inj.mp h).2
  have hsub : (Finset.range (names.freshNumber base)).image (numbered base) ⊆
      names.taken.toFinset := by
    intro x hx
    obtain ⟨n, hn, rfl⟩ := Finset.mem_image.mp hx
    exact List.mem_toFinset.mpr ((names.freshNumber_spec base).2 n (Finset.mem_range.mp hn))
  calc names.freshNumber base = (Finset.range (names.freshNumber base)).card := by simp
    _ = ((Finset.range (names.freshNumber base)).image (numbered base)).card :=
        (Finset.card_image_of_injective _ hinj).symm
    _ ≤ names.taken.toFinset.card := Finset.card_le_card hsub

/-! ### One allocation -/

/-- What the allocation of the name with number `n` for a function does. -/
structure Allocates (current : Names) (f : String) (n : Nat) (next : Names) : Prop where
  /-- The name is given. -/
  allocate : current.allocate f = some (numbered (current.base f) n, next)
  /-- The name was not taken. -/
  free : numbered (current.base f) n ∉ current.taken
  /-- The names with lower numbers were taken. -/
  least : ∀ m < n, numbered (current.base f) m ∈ current.taken
  /-- The search ends in turn `n + 1`. -/
  turns : ∀ turns, current.search (current.base f) turns 0 = if n < turns then some n else none
  /-- The turns are at most one more than the taken names. -/
  bound : n + 1 ≤ current.taken.toFinset.card + 1
  /-- The name and no other is taken in addition. -/
  taken : next.taken.toFinset = insert (numbered (current.base f) n) current.taken.toFinset
  /-- The owner stays. -/
  owner : next.owner = current.owner

/-- A function with a name that holders can be named by has one allocated. -/
theorem allocates (h : Nameable current.owner f) :
    Allocates current f (current.freshNumber (current.base f))
      (current.take (current.fresh f)) := by
  obtain ⟨hfree, hleast⟩ := current.freshNumber_spec (current.base f)
  have hspelled : isSpelledName (current.fresh f) = true :=
    (isSpelledName_iff_nameable current f _).mpr h
  refine ⟨if_pos hspelled, hfree, hleast, fun turns => ?_,
    Nat.succ_le_succ (current.freshNumber_le_card _), ?_, owner_take _ _⟩
  · rw [search_eq _ _ (Nat.zero_le _), Nat.zero_add]
  · ext y
    simp [fresh]

/-! ### Runs -/

/-- The written names that an operation takes. -/
def Operation.written : Operation → List String
  | .reserve name => [name]
  | .reserveItems is => is.flatMap Item.declares
  | .reserveBlock body => body.flatMap Statement.declares
  | _ => []

/-- The owner that qualifies names after an operation. -/
def Operation.ownerAfter (owner? : Option String) : Operation → Option String
  | .qualify owner => some (Text.upper owner)
  | _ => owner?

/-- An operation on the names there are, with an owner of characters of names and a function that
has a name. -/
def Operation.isProper : Operation → Bool
  | .new | .items _ | .members _ => false
  | .qualify owner => (Text.upper owner).toList.all Text.isNamePart
  | .allocate f => isSpelledName (unraw f)
  | _ => true

/-- The name that was allocated, if the answer is one. -/
def Answer.name? : Answer → Option String
  | .allocated name => some name
  | _ => none

/-- Performs operations in a row. -/
def performAll (names : Names) : List Operation → Option (List Answer × Names)
  | [] => some ([], names)
  | op :: ops =>
    (names.perform op).bind fun r => (r.2.performAll ops).map fun rest => (r.1 :: rest.1, rest.2)

/-- Whether the owner consists of characters of names. -/
def HasNamedOwner (names : Names) : Prop :=
  ∀ owner ∈ names.owner, owner.toList.all Text.isNamePart

/-- What a proper operation does to names: it is performed, takes the names it is written with and
the one it allocates, which was not taken, and sets the owner. -/
theorem perform_proper {op : Operation} (howner : current.HasNamedOwner) (hop : op.isProper = true) :
    ∃ a next, current.perform op = some (a, next) ∧ next.HasNamedOwner ∧
      next.owner = op.ownerAfter current.owner ∧
      (∀ x ∈ a.name?, x ∉ current.taken) ∧
      ∀ y, y ∈ next.taken ↔ y ∈ current.taken ∨ y ∈ op.written.map unraw ∨ y ∈ a.name? := by
  cases op with
  | new => cases hop
  | items is => cases hop
  | members ms => cases hop
  | qualify owner =>
      refine ⟨_, _, rfl, ?_, rfl, by simp [Answer.name?], ?_⟩
      · rintro _ ⟨⟩
        exact hop
      · simp [qualify, Operation.written, Answer.name?]
  | reserve name =>
      refine ⟨_, _, rfl, ?_, owner_take _ _, by simp [Answer.name?], ?_⟩
      · simpa [HasNamedOwner, reserve] using howner
      · simp [reserve, Operation.written, Answer.name?, or_comm]
  | reserveItems is =>
      refine ⟨_, _, rfl, ?_, owner_reserveAll _ _, by simp [Answer.name?], ?_⟩
      · simpa [HasNamedOwner, reserveItems] using howner
      · simp [reserveItems, Operation.written, Answer.name?, or_comm]
  | reserveBlock body =>
      refine ⟨_, _, rfl, ?_, owner_reserveAll _ _, by simp [Answer.name?], ?_⟩
      · simpa [HasNamedOwner, reserveBlock] using howner
      · simp [reserveBlock, Operation.written, Answer.name?, or_comm]
  | contains name =>
      refine ⟨_, _, rfl, howner, rfl, by simp [Answer.name?], ?_⟩
      simp [Operation.written, Answer.name?]
  | allocate f =>
      have ha := allocates (nameable_of_isSpelledName howner hop)
      refine ⟨_, _, by rw [perform, ha.allocate]; rfl, ?_, ha.owner, ?_, ?_⟩
      · simpa [HasNamedOwner] using howner
      · simpa [Answer.name?] using ha.free
      · simp [Operation.written, Answer.name?, fresh, or_comm, eq_comm]

/-- What a run of proper operations does to names: it takes the names it is written with and those
it allocates, which are new and differ from each other, and keeps the owner that was set last. -/
theorem performAll_proper {ops : List Operation} (howner : names.HasNamedOwner)
    (hops : ∀ op ∈ ops, op.isProper = true) :
    ∃ as names', names.performAll ops = some (as, names') ∧ names'.HasNamedOwner ∧
      names'.owner = ops.foldl Operation.ownerAfter names.owner ∧
      (as.filterMap Answer.name?).Nodup ∧
      (∀ x ∈ as.filterMap Answer.name?, x ∉ names.taken) ∧
      ∀ y, y ∈ names'.taken ↔ y ∈ names.taken ∨ y ∈ (ops.flatMap Operation.written).map unraw ∨
        y ∈ as.filterMap Answer.name? := by
  induction ops generalizing names with
  | nil => exact ⟨[], names, rfl, howner, rfl, by simp, by simp, by simp⟩
  | cons op ops ih =>
      obtain ⟨hop, hrest⟩ := List.forall_mem_cons.mp hops
      obtain ⟨a, next, hperform, hnext, hset, hnew, htaken⟩ := perform_proper howner hop
      obtain ⟨as, names', hrun, hnames', hsets, hnodup, hnews, htakens⟩ := ih hnext hrest
      refine ⟨a :: as, names', by simp [performAll, hperform, hrun], hnames', ?_, ?_, ?_, ?_⟩
      · rw [hsets, hset, List.foldl_cons]
      · rw [List.filterMap_cons]
        cases ha : a.name? with
        | none => exact hnodup
        | some x =>
          -- The name is taken when the other names are given.
          refine List.nodup_cons.mpr ⟨fun hx => hnews x hx ?_, hnodup⟩
          exact (htaken x).mpr (.inr (.inr ha))
      · intro x hx ht
        rcases List.mem_filterMap.mp hx with ⟨b, hb, hbx⟩
        rcases List.mem_cons.mp hb with rfl | hb
        · exact hnew x hbx ht
        · exact hnews x (List.mem_filterMap.mpr ⟨b, hb, hbx⟩) ((htaken x).mpr (.inl ht))
      · intro y
        rw [htakens, htaken, List.flatMap_cons, List.map_append, List.mem_append,
          List.filterMap_cons]
        cases a.name? with
        | none => simp only [Option.mem_def, reduceCtorEq, or_false]; tauto
        | some x => simp only [Option.mem_def, Option.some.injEq, List.mem_cons, eq_comm]; tauto

/-- Runs one after the other. -/
theorem performAll_append (ops ops' : List Operation) :
    names.performAll (ops ++ ops') = (names.performAll ops).bind fun r =>
      (r.2.performAll ops').map fun rest => (r.1 ++ rest.1, rest.2) := by
  induction ops generalizing names with
  | nil => simp [performAll]
  | cons op ops ih =>
      cases hperform : names.perform op with
      | none => simp [performAll, hperform]
      | some r =>
        simp only [List.cons_append, performAll, hperform, Option.bind_some, ih]
        cases r.2.performAll ops with
        | none => rfl
        | some rest => simp [Option.map_map, Function.comp_def]

/-! ### Main statement -/

/-- **Names over runs.** A run of operations on the names of a scope, with owners of characters of
names and functions that have names, goes through. The names it gives differ from each other and
were not taken when it began. Each allocation in it gives the name with the least number that is
not taken, for the owner set last and the function's name in upper case, after at most one more
turn than there are taken names, and takes this name in addition and no other. Taken at that time
are the names there were at the beginning, those reserved since, which neither in raw nor in plain
spelling are the new name, and those allocated since. -/
theorem performAll_allocates {names : Names} {ops : List Operation}
    (howner : names.HasNamedOwner) (hops : ∀ op ∈ ops, op.isProper = true) :
    ∃ as names', names.performAll ops = some (as, names') ∧
      (as.filterMap Answer.name?).Nodup ∧ (∀ x ∈ as.filterMap Answer.name?, x ∉ names.taken) ∧
      ∀ before f after, ops = before ++ .allocate f :: after →
        ∃ as₁ current n next as₂, names.performAll before = some (as₁, current) ∧
          Allocates current f n next ∧ next.performAll after = some (as₂, names') ∧
          as = as₁ ++ .allocated (numbered (current.base f) n) :: as₂ ∧
          current.owner = before.foldl Operation.ownerAfter names.owner ∧
          (∀ y, y ∈ current.taken ↔ y ∈ names.taken ∨
            y ∈ (before.flatMap Operation.written).map unraw ∨ y ∈ as₁.filterMap Answer.name?) ∧
          ∀ y ∈ before.flatMap Operation.written,
            y ≠ numbered (current.base f) n ∧ y ≠ "r#" ++ numbered (current.base f) n := by
  obtain ⟨as, names', hrun, -, -, hnodup, hnew, -⟩ := performAll_proper howner hops
  refine ⟨as, names', hrun, hnodup, hnew, ?_⟩
  rintro before f after rfl
  obtain ⟨as₁, current, hbefore, hnamed, hset, -, -, htaken⟩ :=
    performAll_proper howner fun op hop => hops op (List.mem_append_left _ hop)
  have hf : isSpelledName (unraw f) = true :=
    hops (.allocate f) (List.mem_append_right _ List.mem_cons_self)
  have ha := allocates (nameable_of_isSpelledName hnamed hf)
  rw [performAll_append, hbefore] at hrun
  simp only [Option.bind_some, performAll, perform, ha.allocate, Option.map_some] at hrun
  obtain ⟨rest, hrest, heq⟩ := Option.map_eq_some_iff.mp hrun
  obtain ⟨⟨as₂, last⟩, hafter, rfl⟩ := Option.map_eq_some_iff.mp hrest
  obtain ⟨rfl, rfl⟩ := Prod.mk.inj heq
  refine ⟨as₁, current, _, _, as₂, hbefore, ha, hafter, rfl, hset, htaken, fun y hy => ?_⟩
  obtain ⟨hplain, hraw⟩ := unraw_of_head?
    (hasHolderForm_base current f (current.freshNumber (current.base f))).head?
  have htaken_y : unraw y ∈ current.taken :=
    (htaken _).mpr (.inr (.inl (List.mem_map_of_mem hy)))
  constructor
  · rintro rfl
    exact ha.free (hplain ▸ htaken_y)
  · rintro rfl
    exact ha.free (hraw ▸ htaken_y)

/-- A run with reservations in raw and in plain spelling, an owner, and functions of one name in two
spellings. -/
def circleRun : List Operation :=
  [.reserve "r#__AREA_CACHE_0", .allocate "area", .qualify "Circle", .allocate "r#area",
    .reserve "__CIRCLE_AREA_CACHE_1", .contains "area", .allocate "Area"]

/-- The run goes through and gives three names. -/
theorem circleRun_allocates :
    empty.HasNamedOwner ∧ (∀ op ∈ circleRun, op.isProper = true) ∧
      ∃ as names', empty.performAll circleRun = some (as, names') ∧
        as.filterMap Answer.name? =
          ["__AREA_CACHE_1", "__CIRCLE_AREA_CACHE_0", "__CIRCLE_AREA_CACHE_2"] ∧
        (as.filterMap Answer.name?).Nodup := by
  have howner : empty.HasNamedOwner := by
    rintro _ ⟨⟩
  have hops : ∀ op ∈ circleRun, op.isProper = true := by decide +kernel
  obtain ⟨as, names', hrun, hnodup, -⟩ := performAll_allocates howner hops
  refine ⟨howner, hops, as, names', hrun, ?_, hnodup⟩
  have hnames : (empty.performAll circleRun).map (fun r => r.1.filterMap Answer.name?) =
      some ["__AREA_CACHE_1", "__CIRCLE_AREA_CACHE_0", "__CIRCLE_AREA_CACHE_2"] := by
    decide +kernel
  rw [hrun] at hnames
  exact Option.some.inj hnames

end Names

end Memoize
