import Memoize.Proofs.Text.Quoted
import Memoize.Token.Literal

/-!
# What text literals stand for

A text literal is quoted, with escapes, or raw, so that every character of it stands for itself up
to the quote and the fence that close it; a suffix may follow either. Main statements: a literal is
read as a text exactly if it denotes it (`textValue?_eq_some_iff`), and what is written for a text
is read back as the text, whatever characters it has (`textValue?_quote`).
-/

namespace Memoize.Text.Quoted

/-! ### Unescaped bodies -/

/-- Whether a text can stand in an unescaped body that is closed by a quote and a fence: the body is
not closed before its end, and every carriage return has its line feed. -/
structure Unescaped (fence : Nat) (v : List Char) : Prop where
  notClosed : ¬ '"' :: List.replicate fence '#' <:+: v
  lineEnds : ∀ before rest, v = before ++ '\r' :: rest → rest.head? = some '\n'

/-- What closes an unescaped body, and what follows it. -/
def closeRaw (fence : Nat) (rest : List Char) : List Char :=
  '"' :: (List.replicate fence '#' ++ rest)

/-- A fence is split off where it stands. -/
theorem dropFence_eq_some_iff {n : Nat} {s rest : List Char} :
    dropFence n s = some rest ↔ s = List.replicate n '#' ++ rest := by
  induction n generalizing s with
  | zero => simp [dropFence]
  | succ n ih =>
    cases s with
    | nil => simp [dropFence, List.replicate_succ]
    | cons c s =>
      by_cases hc : c = '#'
      · subst hc
        simp [dropFence, ih, List.replicate_succ]
      · simp [dropFence, hc, List.replicate_succ]

/-- A fence before the end of a body lies within the body. -/
theorem fence_prefix {n m : Nat} {v rest : List Char}
    (h : List.replicate n '#' <+: v ++ closeRaw m rest) : List.replicate n '#' <+: v := by
  induction n generalizing v with
  | zero => exact List.nil_prefix
  | succ n ih =>
    rw [List.replicate_succ] at h ⊢
    cases v with
    | nil => exact absurd (List.cons_prefix_cons.mp h).1 (by decide)
    | cons c v =>
      rw [List.cons_append, List.cons_prefix_cons] at h
      exact List.cons_prefix_cons.mpr ⟨h.1, ih h.2⟩

/-- Nothing stands in any unescaped body. -/
theorem unescaped_nil (n : Nat) : Unescaped n [] where
  notClosed h := by simp at h
  lineEnds before rest h := by simp at h

/-- What a character adds to a text in an unescaped body. -/
theorem unescaped_cons_iff {n : Nat} {c : Char} {v : List Char} :
    Unescaped n (c :: v) ↔
      ¬ (c = '"' ∧ List.replicate n '#' <+: v) ∧ (c = '\r' → v.head? = some '\n') ∧
        Unescaped n v := by
  constructor
  · rintro ⟨hclosed, hends⟩
    rw [List.infix_cons_iff, List.cons_prefix_cons, not_or] at hclosed
    refine ⟨fun h => hclosed.1 ⟨h.1.symm, h.2⟩, ?_, hclosed.2, fun before rest h => ?_⟩
    · rintro rfl
      exact hends [] v rfl
    · exact hends (c :: before) rest (by rw [h, List.cons_append])
  · rintro ⟨hclosed, hreturn, hv⟩
    refine ⟨?_, fun before rest h => ?_⟩
    · rw [List.infix_cons_iff, List.cons_prefix_cons, not_or]
      exact ⟨fun h => hclosed ⟨h.1.symm, h.2⟩, hv.notClosed⟩
    · cases before with
      | nil =>
        obtain ⟨hc, rfl⟩ := List.cons.inj h
        exact hreturn hc
      | cons d before => exact hv.lineEnds before rest (List.cons.inj h).2

/-- A quote and its fence close an unescaped body. -/
theorem scanRaw_closeRaw (n : Nat) (rest : List Char) :
    scanRaw .text n (closeRaw n rest) = some ([], rest) := by
  have hfence : dropFence n (List.replicate n '#' ++ rest) = some rest :=
    dropFence_eq_some_iff.mpr rfl
  simp [closeRaw, scanRaw, hfence]

/-- A character that does not close an unescaped body stands for itself. -/
theorem scanRaw_cons_of_open {n : Nat} {c : Char} {s : List Char}
    (h : ¬ (c = '"' ∧ List.replicate n '#' <+: s)) :
    scanRaw .text n (c :: s) =
      if c = '\r' ∧ s.head? ≠ some '\n' then none
      else (scanRaw .text n s).map fun r => (c :: r.1, r.2) := by
  have hopen : (if c = '"' then dropFence n s else none) = none := by
    by_cases hc : c = '"'
    · rw [if_pos hc, Option.eq_none_iff_forall_ne_some]
      intro after hafter
      exact h ⟨hc, after, (dropFence_eq_some_iff.mp hafter).symm⟩
    · exact if_neg hc
  rw [scanRaw, hopen]
  simp

/-- An unescaped body is read to the quote and the fence that close it. -/
theorem scanRaw_of_unescaped {n : Nat} {v : List Char} (h : Unescaped n v) (rest : List Char) :
    scanRaw .text n (v ++ closeRaw n rest) = some (v, rest) := by
  induction v with
  | nil => exact scanRaw_closeRaw n rest
  | cons c v ih =>
    obtain ⟨hclosed, hreturn, hv⟩ := unescaped_cons_iff.mp h
    have hline : ¬ (c = '\r' ∧ (v ++ closeRaw n rest).head? ≠ some '\n') := by
      rintro ⟨hc, hhead⟩
      rw [List.head?_append, hreturn hc] at hhead
      exact hhead rfl
    rw [List.cons_append, scanRaw_cons_of_open fun hc => hclosed ⟨hc.1, fence_prefix hc.2⟩,
      if_neg hline, ih hv]
    rfl

/-- What an unescaped body is read to. -/
theorem scanRaw_eq_some_iff {n : Nat} {s v rest : List Char} :
    scanRaw .text n s = some (v, rest) ↔ s = v ++ closeRaw n rest ∧ Unescaped n v := by
  constructor
  · intro h
    induction s generalizing v with
    | nil => cases h
    | cons c s ih =>
      by_cases hclosed : c = '"' ∧ List.replicate n '#' <+: s
      · obtain ⟨rfl, after, rfl⟩ := hclosed
        obtain ⟨rfl, rfl⟩ := Prod.mk.inj (Option.some.inj ((scanRaw_closeRaw n after).symm.trans h))
        exact ⟨rfl, unescaped_nil n⟩
      · rw [scanRaw_cons_of_open hclosed] at h
        split at h
        · cases h
        · rename_i hline
          obtain ⟨⟨v, rest⟩, hscan, heq⟩ := Option.map_eq_some_iff.mp h
          obtain ⟨rfl, rfl⟩ := Prod.mk.inj heq
          obtain ⟨rfl, hv⟩ := ih hscan
          refine ⟨rfl, unescaped_cons_iff.mpr ⟨?_, ?_, hv⟩⟩
          · rintro ⟨hc, hfence⟩
            exact hclosed ⟨hc, hfence.trans (List.prefix_append v _)⟩
          · -- The quote that closes the body is no line feed, so the line feed is in the body.
            rintro rfl
            cases v with
            | nil => simp [closeRaw] at hline
            | cons d v => simpa using hline
  · rintro ⟨rfl, hv⟩
    exact scanRaw_of_unescaped hv rest

/-- The opening of an unescaped body is its fence and a quote. -/
theorem openRaw_eq_some_iff {count n : Nat} {s rest : List Char} :
    openRaw count s = some (n, rest) ↔
      ∃ k, s = List.replicate k '#' ++ '"' :: rest ∧ n = count + k ∧ n ≤ 255 := by
  induction s generalizing count with
  | nil => simp [openRaw]
  | cons c s ih =>
    constructor
    · intro h
      unfold openRaw at h
      split at h
      · rename_i s' heq
        obtain ⟨rfl, rfl⟩ := List.cons.inj heq
        split at h
        · rename_i hcount
          obtain ⟨rfl, rfl⟩ := Prod.mk.inj (Option.some.inj h)
          exact ⟨0, rfl, rfl, hcount⟩
        · cases h
      · rename_i s' heq
        obtain ⟨rfl, rfl⟩ := List.cons.inj heq
        obtain ⟨k, rfl, rfl, hn⟩ := ih.mp h
        exact ⟨k + 1, by simp [List.replicate_succ], by omega, hn⟩
      · cases h
    · rintro ⟨k, heq, rfl, hn⟩
      cases k with
      | zero =>
        obtain ⟨rfl, rfl⟩ := List.cons.inj heq
        exact if_pos hn
      | succ k =>
        rw [List.replicate_succ, List.cons_append] at heq
        obtain ⟨rfl, rfl⟩ := List.cons.inj heq
        exact ih.mpr ⟨k, rfl, by omega, hn⟩

end Memoize.Text.Quoted

namespace Memoize.Literal

open Text.Quoted

/-- Text literals, the texts they stand for and the suffixes written after them. -/
inductive Denotes : List Char → List Char → List Char → Prop where
  | quoted {b v suffix} (body : Body b v) : Denotes ('"' :: (b ++ '"' :: suffix)) v suffix
  | raw {n v suffix} (hn : n ≤ 255) (hv : Unescaped n v) :
      Denotes ('r' :: (List.replicate n '#' ++ '"' :: (v ++ closeRaw n suffix))) v suffix

/-- A word is read as a text exactly if it is a literal that denotes it. -/
theorem textValue?_eq_some_iff {word v suffix : String} :
    textValue? word = some (v, suffix) ↔ Denotes word.toList v.toList suffix.toList := by
  unfold textValue?
  dsimp only
  constructor
  · intro h
    split at h
    · rename_i body hword
      obtain ⟨⟨cs, rest⟩, hscan, heq⟩ := Option.map_eq_some_iff.mp h
      obtain ⟨rfl, rfl⟩ := Prod.mk.inj heq
      obtain ⟨b, rfl, hb⟩ := scan_eq_some_iff.mp hscan
      rw [hword, String.toList_ofList, String.toList_ofList]
      exact .quoted hb
    · rename_i body hword
      split at h
      · rename_i fence inner hopen
        obtain ⟨⟨cs, rest⟩, hscan, heq⟩ := Option.map_eq_some_iff.mp h
        obtain ⟨rfl, rfl⟩ := Prod.mk.inj heq
        obtain ⟨k, rfl, hfence, hle⟩ := openRaw_eq_some_iff.mp hopen
        obtain rfl : fence = k := by omega
        obtain ⟨rfl, hcs⟩ := scanRaw_eq_some_iff.mp hscan
        rw [hword, String.toList_ofList, String.toList_ofList]
        exact .raw hle hcs
      · cases h
    · cases h
  · generalize word.toList = w
    intro h
    cases h with
    | quoted body => simp [body.scan]
    | @raw n _ _ hn hv =>
      have hopen : ∀ rest, openRaw 0 (List.replicate n '#' ++ '"' :: rest) = some (n, rest) :=
        fun rest => openRaw_eq_some_iff.mpr ⟨n, rfl, (Nat.zero_add n).symm, hn⟩
      simp [hopen, scanRaw_of_unescaped hv]

/-- What is written for a text is read back as the text. -/
theorem textValue?_quote (s : String) : textValue? (quote s) = some (s, "") := by
  apply textValue?_eq_some_iff.mpr
  rw [quote, String.toList_ofList]
  exact .quoted (body_encode s.toList)

end Memoize.Literal
