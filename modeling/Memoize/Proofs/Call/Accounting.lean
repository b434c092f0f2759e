import Memoize.Proofs.Call.Balance
import Memoize.Proofs.Sample.Fibonacci

/-!
# Accounts of memoized runs

The counters and the size of a cache tell what happened to its function, in every state that a
program reaches. For pure functions the accounts are simple: every key that is called runs its body
once. A run that calls `fib` with arguments up to a number starts at most one body for each of the
arguments.
-/

namespace Memoize

variable {C H K V M : Type} [DecidableEq H] [DecidableEq K]

namespace Program

variable {p : Program C H K V M} {fresh : H → Store K V} {P : C → Prop} {f : H → K → V}

/-- After a run the started bodies of a pure function are the keys it was called with, each once,
and the stored keys are the same. -/
theorem Computes.started_perm (hp : p.Computes P f) (hpure : p.Pure P)
    (hfresh : ∀ h, (fresh h).entries = []) {m : M} {cs : List C} {s : Machine H K V M}
    (h : p.Run fresh (.initial m) cs s) {c : C} (hc : P c) :
    (s.keysAt .started (p.holder c)).Perm (s.keysAt .called (p.holder c)).dedup ∧
      ∀ k, k ∈ s.keysAt .started (p.holder c) ↔ k ∈ (s.store fresh (p.holder c)).entries.keys := by
  have honce := hp.once_of_run hpure hfresh h c hc
  constructor
  · rw [List.perm_ext_iff_of_nodup honce.nodup (List.nodup_dedup _)]
    intro k
    rw [List.mem_dedup, honce.called_iff k]
  · intro k
    rw [honce.started_iff k, or_false]

/-- After a run the cache of a pure function has as many entries as bodies have started. -/
theorem Computes.len_eq_started (hp : p.Computes P f) (hpure : p.Pure P)
    (hfresh : ∀ h, (fresh h).entries = []) {m : M} {cs : List C} {s : Machine H K V M}
    (h : p.Run fresh (.initial m) cs s) {c : C} (hc : P c) {name : String}
    (hname : fresh (p.holder c) = .counted (.new name)) {d : Cache K V}
    (hd : s.store fresh (p.holder c) = .counted d) :
    (s.keysAt .started (p.holder c)).length = d.len := by
  have honce := hp.once_of_run hpure hfresh h c hc
  obtain ⟨e, -, he, -, -, -, hnodup, -⟩ := balanced_of_reachable hname h.reachable
  obtain rfl := Store.counted.inj (he.symm.trans hd)
  have hperm : (s.keysAt .started (p.holder c)).Perm e.entries.keys := by
    rw [List.perm_ext_iff_of_nodup honce.nodup hnodup]
    intro k
    rw [honce.started_iff k, or_false, hd]
    rfl
  rw [hperm.length_eq]
  exact List.length_map _

end Program

namespace Sample

/-- The keys of `fib` for arguments up to a number. -/
def keysUpTo (n : Nat) : List Key := (List.range (n + 1)).map fun j : Nat => [.number j]

/-- A run that calls `fib` with arguments up to `n` starts bodies of `fib` for such arguments
only. -/
theorem fib_started_le {n : UInt64} {m : Memory} {cs : List Call}
    {s : Machine Site Key Value Memory} (h : program.Run fresh (.initial m) cs s)
    (hcs : ∀ j, .fib j ∈ cs → j ≤ n) :
    s.keysAt .started (.routine .fib) ⊆ keysUpTo n.toNat := by
  have hstable : program.Stable fresh (fun c => ∀ j, c = .fib j → j ≤ n) fun s =>
      s.keysAt .started (.routine .fib) ⊆ keysUpTo n.toNat := by
    refine ⟨fun c hc => body_callsOnly c hc, fun c s v _ hs _ => ?_, fun c s hc hs _ => ?_,
      fun c k v s _ hs => ?_, fun s m hs => hs⟩
    · simpa [Program.keysAt_asked] using hs
    · rw [Program.keysAt_started]
      by_cases hfib : program.holder c = .routine .fib
      · obtain ⟨k, rfl⟩ := fib_computes.apart (.fib 0) c ⟨0, rfl⟩ hfib
        have hk : k.toNat ≤ n.toNat := UInt64.le_iff_toNat_le.mp (hc k rfl)
        simp only [Program.keysAt_asked, hfib, reduceCtorEq, and_true, if_true, if_false]
        refine List.cons_subset.mpr ⟨List.mem_map.mpr ⟨k.toNat, ?_, rfl⟩, hs⟩
        exact List.mem_range.mpr (by omega)
      · simpa [Program.keysAt_asked, hfib] using hs
    · simpa [Program.keysAt_kept] using hs
  exact h.preserves hstable.call_preserves hstable.write
    (fun c hc j hj => hcs j (hj ▸ hc)) (List.nil_subset _)

/-- A run that calls `fib` with arguments up to `n` starts at most `n + 1` bodies of `fib`. -/
theorem fib_started_length {n : UInt64} {m : Memory} {cs : List Call}
    {s : Machine Site Key Value Memory} (h : program.Run fresh (.initial m) cs s)
    (hcs : ∀ j, .fib j ∈ cs → j ≤ n) :
    (s.keysAt .started (.routine .fib)).length ≤ n.toNat + 1 := by
  have honce := fib_computes.once_of_run fib_pure fresh_entries h (.fib 0) ⟨0, rfl⟩
  have hsub := List.subperm_of_subset honce.nodup (fib_started_le h hcs)
  calc (s.keysAt .started (.routine .fib)).length
      ≤ (keysUpTo n.toNat).length := hsub.length_le
    _ = n.toNat + 1 := by rw [keysUpTo, List.length_map, List.length_range]

end Sample

/-- In every reachable state, as long as there are fewer calls than words, the misses of a cache are
the started bodies of its function, its lookups are the calls, and its entries are as many as the
different keys for which a body ended. After a run the bodies of a pure function have started once
for each key that was called, and these are the misses and the entries. A run that calls `fib` with
arguments up to `n` starts at most `n + 1` of its bodies. -/
theorem memoized_accounts :
    (∀ {C H K V M : Type} [DecidableEq H] [DecidableEq K] (p : Program C H K V M)
        (fresh : H → Store K V) (s : Machine H K V M) (h : H) (name : String),
      p.Reachable fresh s → fresh h = .counted (.new name) →
      (s.keysAt .called h).length < 2 ^ 64 →
        ∃ c, s.store fresh h = .counted c ∧
          c.stats.misses.toNat = (s.keysAt .started h).length ∧
          c.stats.hits.toNat + c.stats.misses.toNat = (s.keysAt .called h).length ∧
          c.len = (s.keysAt .completed h).dedup.length) ∧
    (∀ {C H K V M : Type} [DecidableEq H] [DecidableEq K] (p : Program C H K V M)
        (fresh : H → Store K V) (P : C → Prop) (f : H → K → V) (m : M) (cs : List C)
        (s : Machine H K V M) (c : C),
      (∀ h, (fresh h).entries = []) → p.Computes P f → p.Pure P →
      p.Run fresh (.initial m) cs s → P c →
        (s.keysAt .started (p.holder c)).Perm (s.keysAt .called (p.holder c)).dedup ∧
        ∀ name, fresh (p.holder c) = .counted (.new name) →
          (s.keysAt .called (p.holder c)).length < 2 ^ 64 →
          ∃ d, s.store fresh (p.holder c) = .counted d ∧
            (s.keysAt .started (p.holder c)).length = d.stats.misses.toNat ∧
            d.stats.misses.toNat = d.len) ∧
    ∀ (n : UInt64) (m : Sample.Memory) (cs : List Sample.Call)
      (s : Machine Sample.Site Sample.Key Sample.Value Sample.Memory),
      Sample.program.Run Sample.fresh (.initial m) cs s → (∀ j, .fib j ∈ cs → j ≤ n) →
        (s.keysAt .started (.routine .fib)).length ≤ n.toNat + 1 := by
  refine ⟨?_, ?_, fun n m cs s h hcs => Sample.fib_started_length h hcs⟩
  · intro C H K V M _ _ p fresh s h name hs hname hlt
    have hbalanced := Program.balanced_of_reachable hname hs
    obtain ⟨c, hits, hc, -⟩ := id hbalanced
    obtain ⟨hmisses, hlookups⟩ := hbalanced.counters hc hlt
    exact ⟨c, hc, hmisses, hlookups, hbalanced.len_eq hc⟩
  · intro C H K V M _ _ p fresh P f m cs s c hfresh hp hpure h hc
    refine ⟨(hp.started_perm hpure hfresh h hc).1, fun name hname hlt => ?_⟩
    have hbalanced := Program.balanced_of_reachable hname h.reachable
    obtain ⟨d, hits, hd, -⟩ := id hbalanced
    have hmisses := (hbalanced.counters hd hlt).1
    refine ⟨d, hd, hmisses.symm, ?_⟩
    rw [hmisses, hp.len_eq_started hpure hfresh h hc hname hd]

/-- A call of `fib` with four is seven calls and starts five bodies, which the cache tells as well.
-/
theorem memoized_accounts_fib :
    ∃ t, Sample.program.Run Sample.fresh (.initial ⟨[], []⟩) [.fib 4] t ∧
      (∃ c, t.store Sample.fresh (.routine .fib) = .counted c ∧
        c.stats.misses.toNat = 5 ∧ c.stats.hits.toNat + c.stats.misses.toNat = 7 ∧ c.len = 5) ∧
      (t.keysAt .started (.routine .fib)).Perm (t.keysAt .called (.routine .fib)).dedup ∧
      (t.keysAt .started (.routine .fib)).length ≤ 5 := by
  have hlengths : (Sample.program.call Sample.fresh 5 (.fib 4) (.initial ⟨[], []⟩)).map
      (fun r => ((r.2.keysAt .started (.routine .fib)).length,
        (r.2.keysAt .called (.routine .fib)).length)) = some (5, 7) := by
    decide +kernel
  obtain ⟨⟨o, t⟩, ht, hlengths⟩ := Option.map_eq_some_iff.mp hlengths
  obtain ⟨hstarted, hcalled⟩ := Prod.mk.inj hlengths
  have hrun : Sample.program.Run Sample.fresh (.initial ⟨[], []⟩) [.fib 4] t :=
    .call ht (.done t)
  have hlt : (t.keysAt .called (.routine .fib)).length < 2 ^ 64 := by
    rw [hcalled]
    decide
  obtain ⟨c, hc, hmisses, hlookups, -⟩ := memoized_accounts.1 Sample.program Sample.fresh t
    (.routine .fib) "fib" hrun.reachable rfl hlt
  obtain ⟨hperm, hpure⟩ := memoized_accounts.2.1 Sample.program Sample.fresh Sample.IsFib
    Sample.fibValue ⟨[], []⟩ [.fib 4] t (.fib 4) Sample.fresh_entries Sample.fib_computes
    Sample.fib_pure hrun ⟨4, rfl⟩
  obtain ⟨d, hd, -, hlen⟩ := hpure "fib" rfl hlt
  obtain rfl := Store.counted.inj (hd.symm.trans hc)
  refine ⟨t, hrun, ⟨d, hc, ?_, ?_, ?_⟩, hperm, ?_⟩
  · rw [hmisses, hstarted]
  · rw [hlookups, hcalled]
  · rw [← hlen, hmisses, hstarted]
  · refine memoized_accounts.2.2 4 ⟨[], []⟩ [.fib 4] t hrun fun j hj => ?_
    obtain rfl := Sample.Call.fib.inj (List.mem_singleton.mp hj)
    exact UInt64.le_refl 4

end Memoize
