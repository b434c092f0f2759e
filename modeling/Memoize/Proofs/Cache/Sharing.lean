import Memoize.Cache.Slots

/-!
# Sharing between slots

Slots that hold handles to one store share what it keeps, whatever the store is, and slots with
handles to different stores share nothing. Which store a slot has, and what is kept there, can be
read off the moves made so far: a store belongs to the slot for which it was made and to those that
were pointed at it (`holder`), and it keeps the values stored through any of these (`latest`). Main
statement: moves are answered by the moves before them, for stores of all kinds
(`stores_interchangeable`).

## Implementation notes

The moves made so far are listed latest first. They do not say what kind of store a new one is, so
that the same moves can be made with stores of different kinds; the number of a store is the number
of stores made before it.
-/

namespace Memoize.Slots

variable {K V : Type}

/-- A step that stores of all kinds can perform. -/
inductive Move (K V : Type) where
  /-- A new store goes into a slot. -/
  | new (slot : String)
  /-- A slot holds another handle to the store of a slot. -/
  | share (slot source : String)
  /-- A lookup. -/
  | get (slot : String) (key : K)
  /-- A value is stored. -/
  | put (slot : String) (key : K) (value : V)
  deriving DecidableEq, Repr

/-! ### What the moves say -/

/-- How many stores moves have made. -/
def made : List (Move K V) → Nat
  | [] => 0
  | .new _ :: past => made past + 1
  | _ :: past => made past

/-- The number of the store to which a slot holds a handle. A slot that is to share with an empty
one stays as it is. -/
def holder : List (Move K V) → String → Option Nat
  | [], _ => none
  | .new a :: past, b => if b = a then some (made past) else holder past b
  | .share a source :: past, b =>
    if b = a then (holder past source).or (holder past a) else holder past b
  | .get _ _ :: past, b => holder past b
  | .put _ _ _ :: past, b => holder past b

variable [DecidableEq K]

/-- The value that was stored last for a key, through any handle to the store with a number. -/
def latest : List (Move K V) → Nat → K → Option V
  | [], _, _ => none
  | .put a l v :: past, n, k =>
    if holder past a = some n ∧ k = l then some v else latest past n k
  | .new _ :: past, n, k => latest past n k
  | .share _ _ :: past, n, k => latest past n k
  | .get _ _ :: past, n, k => latest past n k

/-- What a move is to be answered after the moves before it. -/
def Move.due (past : List (Move K V)) : Move K V → Answer K V
  | new _ => .done
  | share _ source => if (holder past source).isSome then .done else .noStore
  | get a k => ((holder past a).map fun n => .found (latest past n k)).getD .noStore
  | put a k _ => ((holder past a).map fun n => .previous (latest past n k)).getD .noStore

/-- Whether a move may matter to what is answered through a slot: it gives the slot a store, or it
stores a value through a handle to the store of the slot. -/
def Move.Concerns (past : List (Move K V)) (b : String) : Move K V → Prop
  | new a => a = b
  | share a _ => a = b
  | get _ _ => False
  | put a _ _ => holder past a = holder past b

omit [DecidableEq K] in
/-- Slots hold handles to stores that were made. -/
theorem holder_lt {past : List (Move K V)} {b : String} {n : Nat} (h : holder past b = some n) :
    n < made past := by
  induction past generalizing b with
  | nil => simp [holder] at h
  | cons m past ih =>
    cases m with
    | new a =>
      rw [made]
      by_cases hb : b = a
      · have hn : made past = n := by simpa [holder, hb] using h
        omega
      · exact Nat.lt_succ_of_lt (ih (by simpa [holder, hb] using h))
    | share a source =>
      change n < made past
      by_cases hb : b = a
      · rw [holder, if_pos hb, Option.or_eq_some_iff] at h
        exact h.elim ih fun h => ih h.2
      · exact ih (by simpa [holder, hb] using h)
    | get a k => exact ih (b := b) h
    | put a k v => exact ih (b := b) h

/-- Nothing was stored in a store that is still to be made. -/
theorem latest_eq_none {past : List (Move K V)} {n : Nat} (h : made past ≤ n) (k : K) :
    latest past n k = none := by
  induction past with
  | nil => rfl
  | cons m past ih =>
    cases m with
    | new a =>
      exact ih (Nat.le_of_succ_le h)
    | share a source => exact ih h
    | get a k => exact ih h
    | put a l v =>
      have hno : ¬ (holder past a = some n ∧ k = l) := fun hh => by
        have : n < made past := holder_lt hh.1
        have : made past ≤ n := h
        omega
      rw [latest, if_neg hno]
      exact ih h

/-- Only what is stored for a key in a store changes what is stored there last. -/
theorem latest_cons_of_not_concerns {past : List (Move K V)} {m : Move K V} {b : String} {n : Nat}
    (hm : ¬ m.Concerns past b) (hb : holder past b = some n) (k : K) :
    latest (m :: past) n k = latest past n k := by
  cases m with
  | put a l v =>
    rw [latest, if_neg]
    rintro ⟨ha, -⟩
    exact hm (ha.trans hb.symm)
  | _ => rfl

omit [DecidableEq K] in
/-- A move that does not matter to a slot leaves it its store. -/
theorem holder_cons_of_not_concerns {past : List (Move K V)} {m : Move K V} {b : String}
    (hm : ¬ m.Concerns past b) : holder (m :: past) b = holder past b := by
  cases m with
  | new a => rw [holder, if_neg (Ne.symm hm)]
  | share a source => rw [holder, if_neg (Ne.symm hm)]
  | _ => rfl

/-! ### What slots do -/

/-- What the stores of a run are, by number: the kind of each, and its name if it is a cache. -/
abbrev Making := Nat → StoreKind × String

/-- The step that a move is, for the store that it may make. -/
def Move.step (making : StoreKind × String) : Move K V → Step K V
  | new slot => .new slot making.1 making.2
  | share slot source => .share slot source
  | get slot k => .get slot k
  | put slot k v => .put slot k v

/-- Makes a move. -/
def move (making : Making) (s : Slots K V) (m : Move K V) : Reply (Answer K V) (Slots K V) :=
  s.step (m.step (making s.stores.length))

/-- Makes moves one after the other and collects the answers. -/
def run (making : Making) (s : Slots K V) : List (Move K V) → List (Answer K V)
  | [] => []
  | m :: moves => (s.move making m).answer :: run making (s.move making m).state moves

/-- The slots after moves. -/
def after (making : Making) (past : List (Move K V)) : Slots K V :=
  past.foldr (fun m s => (s.move making m).state) empty

/-- What a move is answered after the moves before it. -/
def answer (making : Making) (past : List (Move K V)) (m : Move K V) : Answer K V :=
  ((after making past).move making m).answer

/-- A run answers every move after those before it. -/
theorem run_getElem? (making : Making) (past moves : List (Move K V)) (n : Nat) :
    (run making (after making past) moves)[n]? =
      moves[n]?.map (answer making ((moves.take n).reverse ++ past)) := by
  induction moves generalizing past n with
  | nil => simp [run]
  | cons m moves ih =>
    cases n with
    | zero => simp [run, answer]
    | succ n =>
      have hnext := ih (m :: past) n
      simp only [run, List.getElem?_cons_succ, List.take_succ_cons, List.reverse_cons,
        List.append_assoc, List.singleton_append]
      exact hnext

/-- Slots are as the moves made on them say. -/
structure Follows (past : List (Move K V)) (s : Slots K V) : Prop where
  length : s.stores.length = made past
  handles : ∀ b, s.handles.get? b = holder past b
  stored : ∀ n store, s.stores[n]? = some store → ∀ k, store.entries.get? k = latest past n k

namespace Follows

variable {past : List (Move K V)} {s : Slots K V}

/-- The store of a slot that has one. -/
theorem store?_of_holder (h : Follows past s) {a : String} {n : Nat} (ha : holder past a = some n) :
    ∃ store, s.store? a = some (n, store) ∧ s.stores[n]? = some store := by
  have hn : n < s.stores.length := h.length ▸ holder_lt ha
  refine ⟨s.stores[n], ?_, List.getElem?_eq_getElem hn⟩
  simp only [store?, h.handles, ha, List.getElem?_eq_getElem hn, Option.map_some]

/-- A slot without a store. -/
theorem store?_of_none (h : Follows past s) {a : String} (ha : holder past a = none) :
    s.store? a = none := by
  simp only [store?, h.handles, ha]

/-- A move that gives no handle away and makes no store leaves the slots as they are, but for the
store that it goes through. -/
theorem update (h : Follows past s) {m : Move K V} {n : Nat} {store : Store K V}
    (hmade : made (m :: past) = made past) (hholder : ∀ b, holder (m :: past) b = holder past b)
    (hstore : ∀ k, store.entries.get? k = latest (m :: past) n k)
    (hothers : ∀ i ≠ n, ∀ k, latest (m :: past) i k = latest past i k) :
    Follows (m :: past) (s.update n store) where
  length := by rw [Slots.update, List.length_set, h.length, hmade]
  handles b := (h.handles b).trans (hholder b).symm
  stored i store' hi k := by
    simp only [Slots.update, List.getElem?_set] at hi
    by_cases hin : n = i
    · subst hin
      by_cases hn : n < s.stores.length
      · obtain rfl : store = store' := by simpa [hn] using hi
        exact hstore k
      · simp [hn] at hi
    · rw [if_neg hin] at hi
      rw [hothers i (Ne.symm hin) k]
      exact h.stored i store' hi k

/-- A move that finds no store in its slot leaves the slots as they are. -/
theorem skip (h : Follows past s) {m : Move K V} (hmade : made (m :: past) = made past)
    (hholder : ∀ b, holder (m :: past) b = holder past b)
    (hlatest : ∀ n k, latest (m :: past) n k = latest past n k) : Follows (m :: past) s where
  length := h.length.trans hmade.symm
  handles b := (h.handles b).trans (hholder b).symm
  stored n store hn k := (h.stored n store hn k).trans (hlatest n k).symm

/-- A new store is empty, and no other slot has a handle to it. -/
theorem create (h : Follows past s) (a : String) (kind : StoreKind) (name : String) :
    Follows (.new a :: past) (s.create a (kind.store name)) where
  length := by simp [Slots.create, made, h.length]
  handles b := by
    by_cases hb : b = a
    · simp [Slots.create, holder, hb, h.length]
    · simp [Slots.create, holder, hb, Entries.get?_insert_of_ne hb, h.handles]
  stored n store hn k := by
    change store.entries.get? k = latest past n k
    rcases Nat.lt_trichotomy n s.stores.length with hlt | rfl | hlt
    · rw [Slots.create, List.getElem?_append_left hlt] at hn
      exact h.stored n store hn k
    · obtain rfl : kind.store name = store := by simpa [Slots.create] using hn
      rw [StoreKind.entries_store, latest_eq_none (Nat.le_of_eq h.length.symm), Entries.get?_nil]
    · rw [Slots.create, List.getElem?_eq_none (by simpa using Nat.succ_le_of_lt hlt)] at hn
      cases hn

/-- A slot that shares has a handle to the store of the other slot. -/
theorem point (h : Follows past s) (a : String) {source : String} {n : Nat}
    (hsource : holder past source = some n) :
    Follows (.share a source :: past) (s.point a n) where
  length := h.length
  handles b := by
    by_cases hb : b = a
    · simp [Slots.point, holder, hb, hsource]
    · simp [Slots.point, holder, hb, Entries.get?_insert_of_ne hb, h.handles]
  stored := h.stored

/-- A move is answered as is due, and the slots still are as the moves say. -/
theorem move (h : Follows past s) (making : Making) (m : Move K V) :
    (s.move making m).answer = m.due past ∧ Follows (m :: past) (s.move making m).state := by
  cases m with
  | new a => exact ⟨rfl, h.create a _ _⟩
  | share a source =>
    simp only [Slots.move, Move.step, step, onStore, Move.due]
    cases hsource : holder past source with
    | none =>
      rw [h.store?_of_none hsource]
      refine ⟨rfl, h.skip rfl (fun b => ?_) fun n k => rfl⟩
      by_cases hb : b = a
      · simp [holder, hb, hsource]
      · simp [holder, hb]
    | some n =>
      obtain ⟨store, hstore, -⟩ := h.store?_of_holder hsource
      rw [hstore]
      exact ⟨rfl, h.point a hsource⟩
  | get a k =>
    simp only [Slots.move, Move.step, step, onStore, Move.due]
    cases ha : holder past a with
    | none =>
      rw [h.store?_of_none ha]
      exact ⟨rfl, h.skip rfl (fun b => rfl) fun n k => rfl⟩
    | some n =>
      obtain ⟨store, hstore, hn⟩ := h.store?_of_holder ha
      rw [hstore]
      refine ⟨?_, h.update rfl (fun b => rfl) (fun l => ?_) fun i _ l => rfl⟩
      · simp only [Store.get_answer, h.stored n store hn, Option.map_some, Option.getD_some]
      · rw [Store.entries_get]
        exact h.stored n store hn l
  | put a k v =>
    simp only [Slots.move, Move.step, step, onStore, Move.due]
    cases ha : holder past a with
    | none =>
      rw [h.store?_of_none ha]
      exact ⟨rfl, h.skip rfl (fun b => rfl) fun n l => by simp [latest, ha]⟩
    | some n =>
      obtain ⟨store, hstore, hn⟩ := h.store?_of_holder ha
      rw [hstore]
      refine ⟨?_, h.update rfl (fun b => rfl) (fun l => ?_) fun i hi l => ?_⟩
      · simp only [Store.put_answer, h.stored n store hn, Option.map_some, Option.getD_some]
      · rw [Store.entries_put]
        by_cases hl : l = k
        · rw [hl, Entries.get?_insert_self]
          simp [latest, ha]
        · rw [Entries.get?_insert_of_ne hl, h.stored n store hn]
          simp [latest, hl]
      · simp [latest, ha, Ne.symm hi]

end Follows

/-- Slots are as the moves made on them say. -/
theorem follows_after (making : Making) (past : List (Move K V)) :
    Follows past (after making past) := by
  induction past with
  | nil => exact ⟨rfl, fun b => rfl, fun n store hn => by simp [after, empty] at hn⟩
  | cons m past ih => exact (ih.move making m).2

/-- Every move is answered as is due. -/
theorem answer_eq_due (making : Making) (past : List (Move K V)) (m : Move K V) :
    answer making past m = m.due past :=
  ((follows_after making past).move making m).1

/-- A move through a slot is answered in the same way after moves that do not matter to the slot. -/
theorem due_cons_of_not_concerns {past : List (Move K V)} {m : Move K V} {b : String}
    (hm : ¬ m.Concerns past b) (k : K) (v : V) :
    Move.due (m :: past) (.get b k) = Move.due past (.get b k) ∧
      Move.due (m :: past) (.put b k v) = Move.due past (.put b k v) := by
  simp only [Move.due, holder_cons_of_not_concerns hm]
  cases hb : holder past b with
  | none => exact ⟨rfl, rfl⟩
  | some n =>
    simp only [Option.map_some, Option.getD_some, latest_cons_of_not_concerns hm hb, and_self]

/-- **Stores are interchangeable, and sharing is exact.** The answers to moves are the same for
stores of all kinds: each is what the moves before it say. A value that is stored through a handle
is found through all handles to the same store and changes nothing else there; a slot that is made
to share answers as the other, and one with a new store is empty; and nothing but giving a slot a
store, or storing a value through a handle to the same store, changes what is answered through it.
-/
theorem stores_interchangeable (making : Making) (moves : List (Move K V)) :
    (∀ making', run making empty moves = run making' empty moves) ∧
    (∀ n : Nat, (run making empty moves)[n]? = moves[n]?.map (Move.due (moves.take n).reverse)) ∧
    (∀ (past : List (Move K V)) a b n, holder past a = some n → holder past b = some n → ∀ k,
      answer making past (.get a k) = answer making past (.get b k) ∧
      ∀ v, answer making (.put a k v :: past) (.get b k) = .found (some v) ∧
        ∀ l, l ≠ k → answer making (.put a k v :: past) (.get b l) =
          answer making past (.get b l)) ∧
    (∀ (past : List (Move K V)) a source n, holder past source = some n → ∀ k,
      answer making (.share a source :: past) (.get a k) = answer making past (.get source k)) ∧
    (∀ (past : List (Move K V)) a k, answer making (.new a :: past) (.get a k) = .found none) ∧
    ∀ (past : List (Move K V)) m b, ¬ m.Concerns past b → ∀ k v,
      answer making (m :: past) (.get b k) = answer making past (.get b k) ∧
      answer making (m :: past) (.put b k v) = answer making past (.put b k v) := by
  have hdue : ∀ (making : Making) (n : Nat), (run making empty moves)[n]? =
      moves[n]?.map (Move.due (moves.take n).reverse) := by
    intro making n
    have hrun := run_getElem? making [] moves n
    rw [List.append_nil, funext (answer_eq_due making _)] at hrun
    exact hrun
  refine ⟨fun making' => List.ext_getElem? fun n => ?_, hdue making, ?_, ?_, ?_, ?_⟩
  · rw [hdue making n, hdue making' n]
  · intro past a b n ha hb k
    simp only [answer_eq_due]
    refine ⟨by simp [Move.due, ha, hb], fun v => ⟨?_, fun l hl => ?_⟩⟩
    · simp [Move.due, holder, latest, ha, hb]
    · simp [Move.due, holder, latest, hb, hl]
  · intro past a source n hsource k
    simp [answer_eq_due, Move.due, holder, latest, hsource]
  · intro past a k
    simp [answer_eq_due, Move.due, holder, latest, latest_eq_none]
  · intro past m b hm k v
    simp only [answer_eq_due]
    exact due_cons_of_not_concerns hm k v

/-- Two slots share a cache, and after one of them was given a map in a cell what is stored there
does not reach the other. -/
theorem stores_interchangeable_replaced :
    let making : Making := fun n => if n = 0 then (.memo, "squares") else (.guarded .cell, "")
    let past : List (Move Nat Nat) := [.new "a", .put "b" 3 9, .share "b" "a", .new "a"]
    run making empty (past.reverse ++ [.put "a" 3 1, .get "b" 3]) =
        run (fun _ => (.handle (.handle (.guarded .mutex)), "")) empty
          (past.reverse ++ [.put "a" 3 1, .get "b" 3]) ∧
      (holder past "a" = some 1 ∧ holder past "b" = some 0) ∧
      answer making past (.get "b" 3) = .found (some 9) ∧
      answer making (.put "a" 3 1 :: past) (.get "b" 3) = .found (some 9) ∧
      answer making (.put "a" 3 1 :: past) (.get "a" 3) = .found (some 1) := by
  intro making past
  have ha : holder past "a" = some 1 := by decide
  have hb : holder past "b" = some 0 := by decide
  have h := stores_interchangeable making (past.reverse ++ [.put "a" 3 1, .get "b" 3])
  have hput : ¬ (Move.put "a" 3 1 : Move Nat Nat).Concerns past "b" := by
    rw [Move.Concerns, ha, hb]
    decide
  have hfound : answer making past (.get "b" 3) = .found (some 9) := rfl
  refine ⟨h.1 _, ⟨ha, hb⟩, hfound, ?_, ((h.2.2.1 past "a" "a" 1 ha ha 3).2 1).1⟩
  rw [(h.2.2.2.2.2 past _ "b" hput 3 0).1, hfound]

end Memoize.Slots
