import Mathlib.Algebra.Group.Nat.Defs
import Mathlib.Data.List.Dedup
import Memoize.Proofs.Call.Reach

/-!
# Counters and what happened

The counters of a cache are words, and the history of a machine lists what happened. In every state
that a program reaches the two agree (`balanced_of_reachable`), so as long as there are fewer calls
than words the counters are the numbers of calls and started bodies (`Balanced.counters`), and the
entries are as many as the keys for which a body ended (`Balanced.len_eq`).

## Implementation notes

`Balanced` speaks of words, since a move adds one to a word whatever its value is; the bound on the
number of calls is needed only when a state is looked at.
-/

namespace Memoize

variable {C H K V M : Type} [DecidableEq H] [DecidableEq K]

/-- The holder has a cache whose counters agree with what happened: every call was a hit or started
a body, and the keys stored are those of the bodies that ended. -/
def Machine.Balanced (fresh : H → Store K V) (h : H) (s : Machine H K V M) : Prop :=
  ∃ c hits, s.store fresh h = .counted c ∧
    c.stats.hits = UInt64.ofNat hits ∧
    hits + (s.keysAt .started h).length = (s.keysAt .called h).length ∧
    c.stats.misses = UInt64.ofNat (s.keysAt .started h).length ∧
    c.entries.keys.Nodup ∧ ∀ k, k ∈ c.entries.keys ↔ k ∈ s.keysAt .completed h

omit [DecidableEq K] in
/-- What happens elsewhere does not matter. -/
theorem Machine.Balanced.congr {fresh : H → Store K V} {h : H} {s t : Machine H K V M}
    (hs : s.Balanced fresh h) (hstore : t.store fresh h = s.store fresh h)
    (hkeys : ∀ stage, t.keysAt stage h = s.keysAt stage h) : t.Balanced fresh h := by
  obtain ⟨d, hits, hd, hhits, hcalls, hmisses, hnodup, hstored⟩ := hs
  refine ⟨d, hits, hstore.trans hd, hhits, ?_, ?_, hnodup, ?_⟩
  · rw [hkeys, hkeys]
    exact hcalls
  · rw [hkeys]
    exact hmisses
  · rw [hkeys]
    exact hstored

/-- Asking a cache that holds a value for the key counts a hit and changes nothing else. -/
theorem Cache.get_of_found {c : Cache K V} {k : K} {v : V} (h : c.entries.get? k = some v) :
    (c.get k).state = { c with stats := c.stats.hit } := by
  simp only [Cache.get, h]

/-- Asking a cache that holds no value for the key counts a miss and changes nothing else. -/
theorem Cache.get_of_missing {c : Cache K V} {k : K} (h : c.entries.get? k = none) :
    (c.get k).state = { c with stats := c.stats.miss } := by
  simp only [Cache.get, h]

namespace Program

variable {p : Program C H K V M} {fresh : H → Store K V} {h : H}

omit [DecidableEq K] in
/-- A new cache is balanced before the first call. -/
theorem balanced_initial {name : String} (hfresh : fresh h = .counted (.new name)) (m : M) :
    (Machine.initial m).Balanced fresh h :=
  ⟨.new name, 0, hfresh, rfl, rfl, rfl, List.nodup_nil, fun _ => Iff.rfl⟩

/-- A hit adds to the calls and to the hits. -/
theorem balanced_hit (c : C) (s : Machine H K V M) (v : V) (hs : s.Balanced fresh h)
    (hv : (s.store fresh (p.holder c)).entries.get? (p.key c s.memory) = some v) :
    (p.asked fresh c s).Balanced fresh h := by
  by_cases hh : p.holder c = h
  · subst hh
    obtain ⟨d, hits, hd, hhits, hcalls, hmisses, hnodup, hkeys⟩ := hs
    rw [hd] at hv
    refine ⟨{ d with stats := d.stats.hit }, hits + 1, ?_, ?_, ?_, ?_, hnodup, ?_⟩
    · rw [store_asked_self, hd, Store.get, Cache.get_of_found hv]
    · simp [CacheStats.hit, hhits, UInt64.ofNat_add]
    · simp only [keysAt_asked, reduceCtorEq, false_and, true_and, if_false, if_true,
        List.length_cons]
      omega
    · simpa [keysAt_asked, CacheStats.hit] using hmisses
    · simpa [keysAt_asked] using hkeys
  · exact hs.congr (store_asked_of_ne p fresh (Ne.symm hh) s)
      (keysAt_asked_of_ne p fresh (Ne.symm hh) s)

/-- A miss adds to the calls, to the misses and to the started bodies. -/
theorem balanced_miss (c : C) (s : Machine H K V M) (hs : s.Balanced fresh h)
    (hv : (s.store fresh (p.holder c)).entries.get? (p.key c s.memory) = none) :
    (p.started fresh c s).Balanced fresh h := by
  by_cases hh : p.holder c = h
  · subst hh
    obtain ⟨d, hits, hd, hhits, hcalls, hmisses, hnodup, hkeys⟩ := hs
    rw [hd] at hv
    refine ⟨{ d with stats := d.stats.miss }, hits, ?_, hhits, ?_, ?_, hnodup, ?_⟩
    · change (p.asked fresh c s).store fresh (p.holder c) = _
      rw [store_asked_self, hd, Store.get, Cache.get_of_missing hv]
    · simp only [keysAt_started, keysAt_asked, reduceCtorEq, false_and, true_and, if_false,
        if_true, List.length_cons]
      omega
    · simp [keysAt_started, keysAt_asked, CacheStats.miss, hmisses, UInt64.ofNat_add]
    · simpa [keysAt_started, keysAt_asked] using hkeys
  · exact hs.congr (store_asked_of_ne p fresh (Ne.symm hh) s)
      (keysAt_started_of_ne p fresh (Ne.symm hh) s)

/-- A kept result adds its key to those that are stored and to those of the bodies that ended. -/
theorem balanced_kept (i : H) (k : K) (v : V) (s : Machine H K V M) (hs : s.Balanced fresh h) :
    (kept fresh i k v s).Balanced fresh h := by
  by_cases hh : i = h
  · subst hh
    obtain ⟨d, hits, hd, hhits, hcalls, hmisses, hnodup, hkeys⟩ := hs
    refine ⟨{ d with entries := d.entries.insert k v }, hits, ?_, hhits, ?_, ?_,
      Entries.nodup_keys_insert hnodup, fun l => ?_⟩
    · rw [store_kept_self, hd]
      rfl
    · simpa [keysAt_kept] using hcalls
    · simpa [keysAt_kept] using hmisses
    · rw [Entries.mem_keys_insert, hkeys l, keysAt_kept, if_pos ⟨rfl, rfl⟩, List.mem_cons]
  · exact hs.congr (store_kept_of_ne fresh (Ne.symm hh) k v s)
      (keysAt_kept_of_ne fresh (Ne.symm hh) k v s)

/-- All moves keep the counters of a cache in agreement with what happened. -/
theorem balanced_stable : p.Stable fresh (fun _ => True) (·.Balanced fresh h) where
  calls c _ := (p.body c).callsOnly_true
  hit c s v _ hs hv := balanced_hit c s v hs hv
  miss c s _ hs hv := balanced_miss c s hs hv
  keep c k v s _ hs := balanced_kept (p.holder c) k v s hs
  write _ _ hs := hs

/-- The counters of a cache agree with what happened in every reachable state. -/
theorem balanced_of_reachable {name : String} (hfresh : fresh h = .counted (.new name))
    {s : Machine H K V M} (hs : p.Reachable fresh s) : s.Balanced fresh h :=
  balanced_stable.of_reachable (balanced_initial hfresh) hs

end Program

namespace Machine.Balanced

variable {fresh : H → Store K V} {h : H} {s : Machine H K V M} {c : Cache K V}

omit [DecidableEq K] in
/-- With fewer calls than words the counters are numbers of calls and started bodies. -/
theorem counters (hs : s.Balanced fresh h) (hc : s.store fresh h = .counted c)
    (hlt : (s.keysAt .called h).length < 2 ^ 64) :
    c.stats.misses.toNat = (s.keysAt .started h).length ∧
      c.stats.hits.toNat + c.stats.misses.toNat = (s.keysAt .called h).length := by
  obtain ⟨d, hits, hd, hhits, hcalls, hmisses, -, -⟩ := hs
  obtain rfl := Store.counted.inj (hd.symm.trans hc)
  have hm : d.stats.misses.toNat = (s.keysAt .started h).length := by
    rw [hmisses]
    exact UInt64.toNat_ofNat_of_lt' (show _ < 2 ^ 64 by omega)
  have hh : d.stats.hits.toNat = hits := by
    rw [hhits]
    exact UInt64.toNat_ofNat_of_lt' (show _ < 2 ^ 64 by omega)
  exact ⟨hm, by omega⟩

/-- The stored keys are those for which a body ended, each once. -/
theorem keys_perm (hs : s.Balanced fresh h) (hc : s.store fresh h = .counted c) :
    c.entries.keys.Perm (s.keysAt .completed h).dedup := by
  obtain ⟨d, -, hd, -, -, -, hnodup, hkeys⟩ := hs
  obtain rfl := Store.counted.inj (hd.symm.trans hc)
  rw [List.perm_ext_iff_of_nodup hnodup (List.nodup_dedup _)]
  intro k
  rw [hkeys k, List.mem_dedup]

/-- There are as many entries as different keys for which a body ended. -/
theorem len_eq (hs : s.Balanced fresh h) (hc : s.store fresh h = .counted c) :
    c.len = (s.keysAt .completed h).dedup.length := by
  rw [← (hs.keys_perm hc).length_eq]
  exact (List.length_map _).symm

end Machine.Balanced

end Memoize
