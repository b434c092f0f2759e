import Mathlib.Data.Nat.Fib.Basic
import Memoize.Proofs.Call.Once
import Memoize.Sample.Catalogue

/-!
# The recursive sample routine

Without memoization the routine `fib` computes the Fibonacci numbers in words of 64 bits, nesting as
deep as its argument says (`direct_fib`). So its calls compute a function of their key, and they
call nothing else (`fib_computes`, `fib_pure`).
-/

namespace Memoize.Sample

/-- The holders of the sample program start empty. -/
theorem fresh_entries (h : Site) : (fresh h).entries = [] := by
  cases h with
  | routine r => cases r <;> rfl
  | rectangle n => rfl

/-- A Fibonacci number as a word. -/
def fibWord (n : Nat) : UInt64 := UInt64.ofNat (Nat.fib n)

/-- The words follow the recursion of the numbers. -/
theorem fibWord_add_two (n : Nat) : fibWord (n + 2) = fibWord (n + 1) + fibWord n := by
  rw [fibWord, fibWord, fibWord, Nat.fib_add_two, Nat.add_comm, UInt64.ofNat_add]

/-- The arguments below two are their own values. -/
theorem fibWord_of_lt {n : UInt64} (h : n < 2) : fibWord n.toNat = n := by
  have hn : n.toNat < 2 := UInt64.lt_iff_toNat_lt.mp h
  apply UInt64.toNat_inj.mp
  obtain hm | hm : n.toNat = 0 ∨ n.toNat = 1 := by omega
  · rw [hm]
    rfl
  · rw [hm]
    rfl

/-- Whether a call is one of `fib`. -/
def IsFib (c : Call) : Prop := ∃ n, c = .fib n

/-- The value of `fib` for a key. -/
def fibValue (_ : Site) : Key → Value
  | [.number n] => .word (fibWord n.toNat)
  | _ => .unit

/-- The arguments of the nested calls are the two numbers before. -/
theorem toNat_before {n : UInt64} (h : ¬ n < 2) :
    2 ≤ n.toNat ∧ (n - 1).toNat = n.toNat - 1 ∧ (n - 2).toNat = n.toNat - 2 := by
  have hlarge : 2 ≤ n.toNat := Nat.le_of_not_lt fun hlt => h (UInt64.lt_iff_toNat_lt.mpr hlt)
  refine ⟨hlarge, ?_, ?_⟩
  · exact UInt64.toNat_sub_of_le n 1 (UInt64.le_iff_toNat_le.mpr (show 1 ≤ n.toNat by omega))
  · exact UInt64.toNat_sub_of_le n 2 (UInt64.le_iff_toNat_le.mpr hlarge)

/-- Without memoization `fib` ends with the Fibonacci number, and exactly if calls may nest as deep
as the argument says. -/
theorem direct_fib (depth : Nat) (n : UInt64) (m : Memory) :
    program.direct depth (.fib n) m =
      if max n.toNat 1 ≤ depth then some (.value (.word (fibWord n.toNat)), m) else none := by
  induction depth generalizing n m with
  | zero =>
      rw [if_neg (by omega)]
      rfl
  | succ d ih =>
      change (fibBody n).runDirect (program.direct d) m = _
      by_cases hn : n < 2
      · have hsmall : n.toNat < 2 := UInt64.lt_iff_toNat_lt.mp hn
        rw [if_pos (by omega), fibWord_of_lt hn]
        simp only [fibBody, if_pos hn, Computation.runDirect]
      · obtain ⟨hlarge, hone, htwo⟩ := toNat_before hn
        simp only [fibBody, if_neg hn, Computation.callThen, Computation.runDirect, ih, hone]
        by_cases hd : n.toNat ≤ d + 1
        · rw [if_pos (show max (n.toNat - 1) 1 ≤ d by omega),
            if_pos (show max n.toNat 1 ≤ d + 1 by omega)]
          simp only [Computation.runDirect, ih, htwo,
            if_pos (show max (n.toNat - 2) 1 ≤ d by omega), Value.toWord]
          obtain ⟨k, hk⟩ : ∃ k, n.toNat = k + 2 := ⟨n.toNat - 2, by omega⟩
          rw [hk, fibWord_add_two]
          rfl
        · rw [if_neg (show ¬ max (n.toNat - 1) 1 ≤ d by omega),
            if_neg (show ¬ max n.toNat 1 ≤ d + 1 by omega)]

/-- The body of `fib` calls `fib` only, with smaller arguments. -/
theorem fibBody_callsOnly {P : Call → Prop} (n : UInt64) (hP : ∀ m < n, P (.fib m)) :
    (fibBody n).CallsOnly P := by
  unfold fibBody
  split
  · trivial
  · rename_i hn
    obtain ⟨hlarge, hone, htwo⟩ := toNat_before hn
    simp only [Computation.callsOnly_callThen]
    refine ⟨hP _ ?_, fun _ => ⟨hP _ ?_, fun _ => trivial⟩⟩
    · rw [UInt64.lt_iff_toNat_lt, hone]
      omega
    · rw [UInt64.lt_iff_toNat_lt, htwo]
      omega

/-- The calls of `fib` compute the Fibonacci numbers. -/
theorem fib_computes : program.Computes IsFib fibValue where
  ends := by
    rintro c m ⟨n, rfl⟩
    refine ⟨max n.toNat 1, ?_⟩
    rw [direct_fib, if_pos le_rfl]
    rfl
  calls := by
    rintro c ⟨n, rfl⟩
    exact fibBody_callsOnly n (fun m _ => ⟨m, rfl⟩)
  apart := by
    rintro c d ⟨n, rfl⟩ h
    cases d <;> first | exact ⟨_, rfl⟩ | cases h

/-- How `fib` ends and nests depends on its argument only, and so on its key. -/
theorem fib_pure : program.Pure IsFib := by
  rintro c d m m' depth ⟨n, rfl⟩ ⟨k, rfl⟩ - hkey
  have hnk : n.toNat = k.toNat := by
    change [Part.number n.toNat] = [Part.number k.toNat] at hkey
    simpa using hkey
  rw [direct_fib, direct_fib, hnk]
  by_cases h : max k.toNat 1 ≤ depth
  · rw [if_pos h, if_pos h]
    rfl
  · rw [if_neg h, if_neg h]

/-- No call but one of `fib` calls a memoized function with an argument of `fib`. -/
theorem body_callsOnly {n : UInt64} (c : Call) (hc : ∀ j, c = .fib j → j ≤ n) :
    (program.body c).CallsOnly fun d => ∀ j, d = .fib j → j ≤ n := by
  cases c with
  | fib k =>
      refine fibBody_callsOnly k fun m hm j hj => ?_
      obtain rfl := Call.fib.inj hj
      exact UInt64.le_of_lt (UInt64.lt_of_lt_of_le hm (hc k rfl))
  | ack k l =>
      change (ackBody k l).CallsOnly _
      unfold ackBody
      split
      · trivial
      · split
        · simp [Computation.callsOnly_callThen, Computation.CallsOnly]
        · simp [Computation.callsOnly_callThen, Computation.CallsOnly]
  | evenHalf k =>
      change (if k % 2 = 0 then _ else _ : Body).CallsOnly _
      split <;> trivial
  | scaledArea i scale =>
      intro m
      dsimp only
      split <;> trivial
  | grownArea i scale =>
      intro m
      dsimp only
      split <;> trivial
  | drain => exact fun m => trivial
  | _ => trivial

end Memoize.Sample
