import Memoize.Proofs.Sample.Fibonacci

/-!
# Memoization goes unnoticed

Pure functions may be memoized: in every state that a program reaches, between calls or within
them, and whatever other functions of the program do, a call of a pure function ends with the value
it has without memoization, and nothing but such values is stored for it.
-/

namespace Memoize

namespace Sample

/-- A call of `fib` that may nest deeper than its argument says ends with the Fibonacci number. -/
theorem call_fib {s : Machine Site Key Value Memory} (hs : program.Reachable fresh s) {n : UInt64}
    {depth : Nat} (hd : n.toNat < depth) :
    ∃ t, program.call fresh depth (.fib n) s = some (.value (.word (fibWord n.toNat)), t) := by
  have hends : program.direct depth (.fib n) s.memory ≠ none := by
    rw [direct_fib, if_pos (by omega)]
    exact Option.some_ne_none _
  obtain ⟨t, ht, -, -⟩ := fib_computes.call_total depth (.fib n) ⟨n, rfl⟩ s
    (fib_computes.sound_of_reachable fresh_entries hs) hends
  exact ⟨t, ht⟩

end Sample

/-- In every reachable state the calls of pure functions end with the values that they have without
memoization, leave the memory as it was, and have only such values stored. So `fib` answers the
Fibonacci number as a word in every reachable state of the sample program. -/
theorem memoization_transparent :
    (∀ {C H K V M : Type} [DecidableEq H] [DecidableEq K] (p : Program C H K V M)
        (fresh : H → Store K V) (P : C → Prop) (f : H → K → V),
      (∀ h, (fresh h).entries = []) → p.Computes P f → ∀ s, p.Reachable fresh s →
        (∀ c, P c →
          (∃ n, ∀ k ≥ n, ∃ t, t.memory = s.memory ∧
            p.call fresh k c s = some (.value (f (p.holder c) (p.key c s.memory)), t)) ∧
          ∀ k o t, p.call fresh k c s = some (o, t) →
            o = .value (f (p.holder c) (p.key c s.memory)) ∧ t.memory = s.memory) ∧
        ∀ c, P c → ∀ e ∈ (s.store fresh (p.holder c)).entries, e.2 = f (p.holder c) e.1) ∧
    ∀ s, Sample.program.Reachable Sample.fresh s → ∀ (n : UInt64) (depth : Nat), n.toNat < depth →
      ∃ t, Sample.program.call Sample.fresh depth (.fib n) s =
        some (.value (.word (UInt64.ofNat (Nat.fib n.toNat))), t) := by
  constructor
  · intro C H K V M _ _ p fresh P f hfresh hp s hs
    have hsound := hp.sound_of_reachable hfresh hs
    refine ⟨fun c hc => ⟨?_, fun k o t h => (hp.call_sound k c s o t hsound h).2 hc⟩, hsound⟩
    obtain ⟨n, hn⟩ := hp.ends c s.memory hc
    refine ⟨n, fun k hk => ?_⟩
    obtain ⟨t, ht, -, hmem⟩ := hp.call_total k c hc s hsound (by simp [p.direct_mono hk hn])
    exact ⟨t, hmem, ht⟩
  · intro s hs n depth hd
    exact Sample.call_fib hs hd

/-- A first call of `fib` in the sample program leaves a state with stored results, in which they
are right and a further call is answered right. -/
theorem memoization_transparent_fib :
    ∃ t, Sample.program.call Sample.fresh 31 (.fib 30) (.initial ⟨[], []⟩) =
        some (.value (.word 832040), t) ∧
      (∀ e ∈ (t.store Sample.fresh (.routine .fib)).entries,
        e.2 = Sample.fibValue (.routine .fib) e.1) ∧
      ∃ u, Sample.program.call Sample.fresh 91 (.fib 90) t =
        some (.value (.word 2880067194370816120), u) := by
  have hstart : Sample.program.Reachable Sample.fresh (.initial ⟨[], []⟩) :=
    (Program.Run.done _).reachable
  obtain ⟨t, ht⟩ := memoization_transparent.2 _ hstart 30 31 (by decide)
  have hreach : Sample.program.Reachable Sample.fresh t :=
    (Program.Run.call ht (Program.Run.done t)).reachable
  refine ⟨t, ht, ?_, memoization_transparent.2 t hreach 90 91 (by decide)⟩
  exact (memoization_transparent.1 Sample.program Sample.fresh Sample.IsFib Sample.fibValue
    Sample.fresh_entries Sample.fib_computes t hreach).2 (.fib 30) ⟨30, rfl⟩

end Memoize
