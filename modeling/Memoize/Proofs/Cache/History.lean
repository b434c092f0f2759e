import Mathlib.Algebra.Group.Nat.Defs
import Mathlib.Data.List.Dedup
import Mathlib.Data.List.DropRight
import Memoize.Cache

/-!
# Caches and their histories

What a cache answers, counts and reports is determined by the operations it has performed so far.
The history of a cache is read as a map (`latest`), as a set of keys (`writtenKeys`) and as a list
of answers; a new cache that performs any operations answers, counts and reports what this history
says (`run_refines_history`).

## Implementation notes

Histories grow at their end, so the induction over a run takes the last operation off. `Follows` is
what one operation preserves; it speaks of counters as words, and the bound on the number of lookups
is used only where their values are read.
-/

namespace Memoize.Cache

variable {K V : Type}

/-- What a cache can be asked to do. -/
inductive Operation (K V : Type) where
  | get (k : K)
  | put (k : K) (v : V)
  | clear
  | len
  | isEmpty
  | stats
  deriving DecidableEq, Repr

/-- What a cache answers, by operation. -/
inductive Answer (V : Type) where
  /-- To a lookup: the value that is stored. -/
  | found (v? : Option V)
  /-- To a value to store: the value it replaces. -/
  | replaced (v? : Option V)
  /-- To dropping all entries. -/
  | cleared
  | count (n : Nat)
  | verdict (empty : Bool)
  | counters (stats : CacheStats)
  deriving DecidableEq, Repr

namespace Operation

/-- Whether an operation drops the entries. -/
def isClear : Operation K V → Bool
  | clear => true
  | _ => false

/-- Whether an operation is a lookup. -/
def isGet : Operation K V → Bool
  | get _ => true
  | _ => false

/-- The entry that an operation stores. -/
def stored? : Operation K V → Option (K × V)
  | put k v => some (k, v)
  | _ => none

/-- What is to be reported of an operation with its answer. -/
def report? : Operation K V → Answer V → Option Activity
  | get _, .found (some _) => some .hit
  | get _, .found none => some .miss
  | put _ _, _ => some .inserted
  | _, _ => none

end Operation

namespace Answer

/-- Whether a lookup answered a value. -/
def isHit : Answer V → Bool
  | found (some _) => true
  | _ => false

/-- Whether a lookup answered that there is none. -/
def isMiss : Answer V → Bool
  | found none => true
  | _ => false

end Answer

/-- The entries stored since the entries were dropped last, oldest first. -/
def writes (ops : List (Operation K V)) : List (K × V) :=
  (ops.rtakeWhile (!·.isClear)).filterMap (·.stored?)

@[simp] theorem writes_nil : writes ([] : List (Operation K V)) = [] := rfl

/-- An operation that drops nothing adds the entry that it stores. -/
theorem writes_concat {op : Operation K V} (h : op.isClear = false) (ops : List (Operation K V)) :
    writes (ops ++ [op]) = writes ops ++ op.stored?.toList := by
  cases hstored : op.stored? <;> simp [writes, h, hstored]

/-- Nothing is stored after the entries are dropped. -/
@[simp] theorem writes_concat_clear (ops : List (Operation K V)) :
    writes (ops ++ [.clear]) = [] := by
  simp [writes, Operation.isClear]

variable [DecidableEq K]

/-- The value stored last for a key since the entries were dropped last. -/
def latest (k : K) (ops : List (Operation K V)) : Option V := (writes ops).reverse.lookup k

/-- The different keys for which values were stored since the entries were dropped last. -/
def writtenKeys (ops : List (Operation K V)) : List K := ((writes ops).map (·.1)).dedup

/-- The last entry decides for its key, the entries before it for the others. -/
theorem latest_concat_put (k l : K) (v : V) (ops : List (Operation K V)) :
    latest l (ops ++ [.put k v]) = if l = k then some v else latest l ops := by
  rw [latest, writes_concat rfl]
  by_cases h : l = k
  · simp [Operation.stored?, h]
  · simp [Operation.stored?, List.lookup_cons, latest, h, beq_eq_false_iff_ne.mpr h]

/-- An operation that stores and drops nothing leaves the latest values as they are. -/
theorem latest_concat {op : Operation K V} (hclear : op.isClear = false)
    (hstored : op.stored? = none) (k : K) (ops : List (Operation K V)) :
    latest k (ops ++ [op]) = latest k ops := by
  rw [latest, writes_concat hclear, hstored, Option.toList_none, List.append_nil, latest]

/-- A key has a latest value exactly if it is one of the written keys. -/
theorem latest_eq_none_iff {k : K} {ops : List (Operation K V)} :
    latest k ops = none ↔ k ∉ writtenKeys ops := by
  simp only [latest, writtenKeys, List.mem_dedup, List.lookup_eq_none_iff, List.mem_reverse,
    List.mem_map, not_exists, not_and]
  exact ⟨fun h e he hk => by simpa [hk] using h e he, fun h e he => by simpa using Ne.symm (h e he)⟩

/-- The answer that a history with its answers wants for an operation. -/
def Operation.due (ops : List (Operation K V)) (answers : List (Answer V)) :
    Operation K V → Answer V
  | get k => .found (latest k ops)
  | put k _ => .replaced (latest k ops)
  | clear => .cleared
  | len => .count (writtenKeys ops).length
  | isEmpty => .verdict (writtenKeys ops).isEmpty
  | stats => .counters
      ⟨.ofNat (answers.countP Answer.isHit), .ofNat (answers.countP Answer.isMiss)⟩

/-- Performs an operation. -/
def perform (c : Cache K V) : Operation K V → Reply (Answer V) (Cache K V)
  | .get k => ⟨.found (c.get k).answer, (c.get k).state, (c.get k).events⟩
  | .put k v => ⟨.replaced (c.put k v).answer, (c.put k v).state, (c.put k v).events⟩
  | .clear => ⟨.cleared, c.clear, []⟩
  | .len => ⟨.count c.len, c, []⟩
  | .isEmpty => ⟨.verdict c.isEmpty, c, []⟩
  | .stats => ⟨.counters c.stats, c, []⟩

/-- Performs operations one after the other and collects the answers and the reports. -/
def run (c : Cache K V) : List (Operation K V) → Reply (List (Answer V)) (Cache K V)
  | [] => ⟨[], c, []⟩
  | op :: ops =>
    let r := c.perform op
    let s := run r.state ops
    ⟨r.answer :: s.answer, s.state, r.events ++ s.events⟩

/-- A run ends with its last operation. -/
theorem run_concat (c : Cache K V) (ops : List (Operation K V)) (op : Operation K V) :
    c.run (ops ++ [op]) =
      ⟨(c.run ops).answer ++ [((c.run ops).state.perform op).answer],
        ((c.run ops).state.perform op).state,
        (c.run ops).events ++ ((c.run ops).state.perform op).events⟩ := by
  induction ops generalizing c with
  | nil => simp [run]
  | cons first ops ih => simp [run, ih]

/-- All operations are answered. -/
@[simp] theorem length_run_answer (c : Cache K V) (ops : List (Operation K V)) :
    (c.run ops).answer.length = ops.length := by
  induction ops generalizing c with
  | nil => rfl
  | cons op ops ih => simp [run, ih]

/-- A lookup answers what is stored. -/
theorem get_answer (c : Cache K V) (k : K) : (c.get k).answer = c.entries.get? k := by
  simp only [get]
  cases c.entries.get? k <;> rfl

/-- A lookup leaves the entries and the name as they are. -/
theorem get_state (c : Cache K V) (k : K) :
    (c.get k).state = { c with
      stats := if (c.entries.get? k).isSome then c.stats.hit else c.stats.miss } := by
  simp only [get]
  cases c.entries.get? k <;> rfl

/-- A report is made of an operation if its answer calls for it, and it names the cache. -/
theorem perform_events (c : Cache K V) (op : Operation K V) :
    (c.perform op).events = (op.report? (c.perform op).answer).toList.map c.event := by
  cases op with
  | get k => simp only [perform, get]; cases c.entries.get? k <;> rfl
  | _ => rfl

/-- No operation renames a cache. -/
theorem perform_name (c : Cache K V) (op : Operation K V) : (c.perform op).state.name = c.name := by
  cases op with
  | get k => simp only [perform, get_state]
  | _ => rfl

/-- A cache holds and counts what its history with its answers says. -/
structure Follows (ops : List (Operation K V)) (answers : List (Answer V)) (c : Cache K V) :
    Prop where
  found : ∀ k, c.entries.get? k = latest k ops
  nodup : c.entries.keys.Nodup
  hits : c.stats.hits = .ofNat (answers.countP Answer.isHit)
  misses : c.stats.misses = .ofNat (answers.countP Answer.isMiss)

namespace Follows

variable {ops : List (Operation K V)} {answers : List (Answer V)} {c : Cache K V}

/-- The stored keys are the written keys. -/
theorem keys_perm (h : c.Follows ops answers) : c.entries.keys.Perm (writtenKeys ops) := by
  refine (List.perm_ext_iff_of_nodup h.nodup (List.nodup_dedup _)).mpr fun k => ?_
  rw [← not_iff_not, ← Entries.get?_eq_none_iff, h.found, latest_eq_none_iff]
  rfl

/-- The entries are as many as the written keys. -/
theorem len_eq (h : c.Follows ops answers) : c.len = (writtenKeys ops).length := by
  rw [← h.keys_perm.length_eq, Entries.keys, List.length_map, len]

/-- A cache that follows its history answers what the history wants. -/
theorem answer_due (h : c.Follows ops answers) (op : Operation K V) :
    (c.perform op).answer = op.due ops answers := by
  cases op with
  | get k => simp only [perform, get_answer, h.found, Operation.due]
  | put k v => simp only [perform, put, h.found, Operation.due]
  | clear => rfl
  | len => simp only [perform, h.len_eq, Operation.due]
  | isEmpty =>
    simp only [perform, isEmpty, h.len_eq, Operation.due]
    cases writtenKeys ops <;> rfl
  | stats => simp only [perform, Operation.due, ← h.hits, ← h.misses]

/-- An operation that changes no entry and answers no lookup changes nothing. -/
theorem concat_idle (h : c.Follows ops answers) {op : Operation K V} {a : Answer V}
    (hclear : op.isClear = false) (hstored : op.stored? = none) (hhit : a.isHit = false)
    (hmiss : a.isMiss = false) : c.Follows (ops ++ [op]) (answers ++ [a]) where
  found k := by rw [h.found, latest_concat hclear hstored]
  nodup := h.nodup
  hits := by simp [h.hits, hhit]
  misses := by simp [h.misses, hmiss]

/-- A lookup counts its own answer and changes no entry. -/
theorem concat_get (h : c.Follows ops answers) (k : K) :
    (c.get k).state.Follows (ops ++ [.get k]) (answers ++ [.found (c.get k).answer]) := by
  rw [get_state, get_answer]
  refine ⟨fun l => by rw [h.found, latest_concat rfl rfl], h.nodup, ?_, ?_⟩
  · cases c.entries.get? k <;>
      simp [Answer.isHit, CacheStats.hit, CacheStats.miss, h.hits, UInt64.ofNat_add]
  · cases c.entries.get? k <;>
      simp [Answer.isMiss, CacheStats.hit, CacheStats.miss, h.misses, UInt64.ofNat_add]

/-- Storing a value makes it the latest of its key and counts nothing. -/
theorem concat_put (h : c.Follows ops answers) (k : K) (v : V) (v? : Option V) :
    (c.put k v).state.Follows (ops ++ [.put k v]) (answers ++ [.replaced v?]) where
  found l := by
    rw [latest_concat_put, ← h.found]
    by_cases hl : l = k
    · rw [hl, if_pos rfl]
      exact Entries.get?_insert_self k v c.entries
    · rw [if_neg hl]
      exact Entries.get?_insert_of_ne hl v c.entries
  nodup := Entries.nodup_keys_insert h.nodup
  hits := by simp [put, h.hits, Answer.isHit]
  misses := by simp [put, h.misses, Answer.isMiss]

/-- Dropping the entries keeps the counters. -/
theorem concat_clear (h : c.Follows ops answers) :
    c.clear.Follows (ops ++ [.clear]) (answers ++ [.cleared]) where
  found k := by simp [clear, latest]
  nodup := List.nodup_nil
  hits := by simp [clear, h.hits, Answer.isHit]
  misses := by simp [clear, h.misses, Answer.isMiss]

/-- A cache that follows its history does so after every operation. -/
theorem perform (h : c.Follows ops answers) (op : Operation K V) :
    (c.perform op).state.Follows (ops ++ [op]) (answers ++ [(c.perform op).answer]) := by
  cases op with
  | get k => exact h.concat_get k
  | put k v => exact h.concat_put k v _
  | clear => exact h.concat_clear
  | len => exact h.concat_idle rfl rfl rfl rfl
  | isEmpty => exact h.concat_idle rfl rfl rfl rfl
  | stats => exact h.concat_idle rfl rfl rfl rfl

end Follows

/-- A new cache has no history. -/
theorem follows_new (name : String) : (new name : Cache K V).Follows [] [] where
  found _ := rfl
  nodup := List.nodup_nil
  hits := rfl
  misses := rfl

/-- A cache follows the history of its run. -/
theorem follows_run (name : String) (ops : List (Operation K V)) :
    ((new name).run ops).state.Follows ops ((new name).run ops).answer := by
  induction ops using List.reverseRecOn with
  | nil => exact follows_new name
  | append_singleton ops op ih =>
    rw [run_concat]
    exact ih.perform op

/-- Runs do not rename a cache. -/
theorem run_name (c : Cache K V) (ops : List (Operation K V)) :
    (c.run ops).state.name = c.name := by
  induction ops generalizing c with
  | nil => rfl
  | cons op ops ih => rw [run, ih, perform_name]

/-- The reports of a run are those of its operations with their answers, in order. -/
theorem run_events (c : Cache K V) (ops : List (Operation K V)) :
    (c.run ops).events =
      ((ops.zip (c.run ops).answer).filterMap fun p => p.1.report? p.2).map (⟨c.name, ·⟩) := by
  induction ops generalizing c with
  | nil => rfl
  | cons op ops ih =>
    simp only [run, List.zip_cons_cons, perform_events, ih, perform_name, List.filterMap_cons]
    cases op.report? (c.perform op).answer <;> rfl

/-- Every operation of a run is answered by what went before it. -/
theorem run_answer_due (name : String) (ops : List (Operation K V)) {n : Nat} {op : Operation K V}
    (h : ops[n]? = some op) :
    ((new name).run ops).answer[n]? =
      some (op.due (ops.take n) (((new name).run ops).answer.take n)) := by
  induction ops using List.reverseRecOn with
  | nil => simp at h
  | append_singleton ops last ih =>
    rw [run_concat]
    rcases Nat.lt_trichotomy n ops.length with hn | rfl | hn
    · have hans : n < ((new name).run ops).answer.length := by rwa [length_run_answer]
      rw [List.getElem?_append_left hn] at h
      rw [List.getElem?_append_left hans, List.take_append_of_le_length hn.le,
        List.take_append_of_le_length hans.le, ih h]
    · obtain rfl : last = op := by simpa using h
      have hlen := length_run_answer (new name) ops
      rw [← hlen, List.getElem?_concat_length, List.take_left, hlen, List.take_left,
        (follows_run name ops).answer_due]
    · rw [List.getElem?_eq_none (by simpa using Nat.succ_le_of_lt hn)] at h
      exact nomatch h

/-- The lookups of a run are those answered by a value and those answered by none. -/
theorem run_lookups (c : Cache K V) (ops : List (Operation K V)) :
    (c.run ops).answer.countP Answer.isHit + (c.run ops).answer.countP Answer.isMiss =
      ops.countP Operation.isGet := by
  induction ops generalizing c with
  | nil => rfl
  | cons op ops ih =>
    simp only [run, List.countP_cons, ← ih (c.perform op).state]
    cases op with
    | get k =>
      cases h : (c.get k).answer <;>
        simp [perform, h, Answer.isHit, Answer.isMiss, Operation.isGet] <;> omega
    | _ => simp [perform, Answer.isHit, Answer.isMiss, Operation.isGet]

/-- **Caches refine their histories.** A new cache that performs any operations answers each of them
by the latest values, the written keys and the numbers of earlier hits and misses; afterwards it
still answers lookups by the latest values, storing a value answers what a lookup would and changes
no other key, the entries are as many as the written keys, the counters are the exact numbers of
lookups that found a value and that found none, and one report was made for each lookup and each
stored value, in order and under the name of the cache. -/
theorem run_refines_history (name : String) (ops : List (Operation K V))
    (hgets : ops.countP Operation.isGet < 2 ^ 64) :
    let r := (new name : Cache K V).run ops
    (r.answer.length = ops.length ∧ ∀ (n : Nat) (op : Operation K V), ops[n]? = some op →
      r.answer[n]? = some (op.due (ops.take n) (r.answer.take n))) ∧
    (∀ k, (r.state.get k).answer = latest k ops) ∧
    (∀ k v, (r.state.put k v).answer = (r.state.get k).answer ∧
      ((r.state.put k v).state.get k).answer = some v ∧
      ∀ l, l ≠ k → ((r.state.put k v).state.get l).answer = (r.state.get l).answer) ∧
    r.state.len = (writtenKeys ops).length ∧
    (r.state.isEmpty = true ↔ r.state.len = 0) ∧
    r.state.stats.hits.toNat = r.answer.countP Answer.isHit ∧
    r.state.stats.misses.toNat = r.answer.countP Answer.isMiss ∧
    r.state.stats.lookups.toNat = r.state.stats.hits.toNat + r.state.stats.misses.toNat ∧
    r.state.stats.lookups.toNat = ops.countP Operation.isGet ∧
    r.events = ((ops.zip r.answer).filterMap fun p => p.1.report? p.2).map (⟨name, ·⟩) := by
  intro r
  have hr : r.state.Follows ops r.answer := follows_run name ops
  have hcount : r.answer.countP Answer.isHit + r.answer.countP Answer.isMiss =
      ops.countP Operation.isGet := run_lookups (new name) ops
  have hhits : r.state.stats.hits.toNat = r.answer.countP Answer.isHit := by
    rw [hr.hits]
    exact UInt64.toNat_ofNat_of_lt' (show _ < 2 ^ 64 by omega)
  have hmisses : r.state.stats.misses.toNat = r.answer.countP Answer.isMiss := by
    rw [hr.misses]
    exact UInt64.toNat_ofNat_of_lt' (show _ < 2 ^ 64 by omega)
  have hsum : r.state.stats.lookups.toNat =
      r.state.stats.hits.toNat + r.state.stats.misses.toNat := by
    rw [CacheStats.toNat_lookups, hhits, hmisses, hcount]
    exact Nat.min_eq_left (show _ ≤ 2 ^ 64 - 1 by omega)
  refine ⟨⟨length_run_answer _ ops, fun n op h => run_answer_due name ops h⟩,
    fun k => (get_answer _ k).trans (hr.found k), fun k v => ⟨?_, ?_, fun l hl => ?_⟩, hr.len_eq,
    by simp [isEmpty], hhits, hmisses, hsum, ?_, run_events (new name) ops⟩
  · rw [get_answer]
    rfl
  · rw [get_answer]
    exact Entries.get?_insert_self k v _
  · rw [get_answer, get_answer]
    exact Entries.get?_insert_of_ne hl v _
  · rw [hsum, hhits, hmisses, hcount]

/-- A run that looks up, stores, replaces and drops. -/
theorem run_refines_history_replaced :
    let ops : List (Operation Nat Nat) :=
      [.get 3, .put 3 9, .put 4 16, .put 3 10, .get 3, .len, .clear, .get 3, .stats]
    let r := (new "squares" : Cache Nat Nat).run ops
    ops.countP Operation.isGet < 2 ^ 64 ∧ r.state.len = (writtenKeys ops).length ∧
      r.state.stats.lookups.toNat = 3 ∧
      r.answer = [.found none, .replaced none, .replaced none, .replaced (some 9),
        .found (some 10), .count 2, .cleared, .found none, .counters ⟨1, 2⟩] := by
  intro ops r
  have hgets : ops.countP Operation.isGet < 2 ^ 64 := by decide
  have h := run_refines_history "squares" ops hgets
  exact ⟨hgets, h.2.2.2.1, h.2.2.2.2.2.2.2.2.1.trans (by decide), by decide⟩

end Memoize.Cache
