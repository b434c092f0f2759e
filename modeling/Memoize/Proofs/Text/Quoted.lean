import Mathlib.Tactic.SplitIfs
import Memoize.Text.Quoted

/-!
# The grammar of quoted text

What may stand between double quotes, as a relation between what is written and the text it stands
for: a row of characters, each written as itself or by an escape, and of escaped line ends, which
stand for nothing and take the blanks after them along. Main statements: what is read has this form,
and is read as the text it stands for (`scan_eq_some_iff`), and what is written for a text has it
(`body_encode`).
-/

namespace Memoize.Text.Quoted

/-! ### The grammar -/

/-- The characters that stand for a character after a backslash. -/
def shortEscapes : List (Char × Char) :=
  [('n', '\n'), ('r', '\r'), ('t', '\t'), ('\\', '\\'), ('\'', '\''), ('"', '"'), ('0', '\x00')]

/-- Hexadecimal digits, each with underscores after it if there are any, their number and how many
they are. -/
inductive Numeral : List Char → Nat → Nat → Prop where
  | digit {c d} (h : hexValue? c = some d) : Numeral [c] d 1
  | more {ds n k c d} (before : Numeral ds n k) (h : hexValue? c = some d) :
      Numeral (ds ++ [c]) (16 * n + d) (k + 1)
  | underscore {ds n k} (before : Numeral ds n k) : Numeral (ds ++ ['_']) n k

/-- The ways to write a character. -/
inductive Form : List Char → Char → Prop where
  /-- As itself. -/
  | plain {c} (hquote : c ≠ '"') (hbackslash : c ≠ '\\') (hreturn : c ≠ '\r') : Form [c] c
  /-- A line end of two characters. -/
  | lineEnd : Form ['\r', '\n'] '\n'
  /-- A backslash and a character that stands for it. -/
  | escape {e c} (h : (e, c) ∈ shortEscapes) : Form ['\\', e] c
  /-- Two hexadecimal digits, for an ASCII character. -/
  | byte {a b m n} (hhigh : hexValue? a = some m) (hm : m < 8) (hlow : hexValue? b = some n) :
      Form ['\\', 'x', a, b] (Char.ofNat (16 * m + n))
  /-- Up to six hexadecimal digits in braces, for a code point. -/
  | point {ds n k} (digits : Numeral ds n k) (hk : k ≤ 6) (hn : n.isValidChar) :
      Form ('\\' :: 'u' :: '{' :: (ds ++ ['}'])) (Char.ofNat n)

/-- The blanks that may follow an escaped line end. -/
def gapBlanks : List Char := [' ', '\t', '\n']

/-- Blanks and line ends in a row. -/
inductive Gap : List Char → Prop where
  | nil : Gap []
  | blank {c g} (h : c ∈ gapBlanks) (rest : Gap g) : Gap (c :: g)
  | lineEnd {g} (rest : Gap g) : Gap ('\r' :: '\n' :: g)

/-- Whether blanks begin with a line end. -/
def OpensLine (g : List Char) : Prop := g.head? = some '\n' ∨ g.head? = some '\r'

/-- Whether a text goes on with something other than blanks. -/
def Resumes (s : List Char) : Prop := ∀ c ∈ s.head?, c ∉ '\r' :: gapBlanks

/-- Quoted bodies and the texts they stand for. -/
inductive Body : List Char → List Char → Prop where
  | nil : Body [] []
  | char {t c b cs} (first : Form t c) (rest : Body b cs) : Body (t ++ b) (c :: cs)
  /-- An escaped line end. -/
  | gap {g b cs} (blanks : Gap g) (hline : OpensLine g) (hrest : Resumes b) (rest : Body b cs) :
      Body ('\\' :: (g ++ b)) cs

/-! ### Steps of the reading

For every state, the characters that may come next and what they lead to. -/

section Steps

variable {c : Char} {next : Reading} {out : List Char}

theorem step_plain_iff :
    step .text .plain c = some (next, out) ↔
      (c = '"' ∧ next = .closed ∧ out = []) ∨ (c = '\\' ∧ next = .escape ∧ out = []) ∨
        (c = '\r' ∧ next = .carriage ∧ out = []) ∨
        (c ≠ '"' ∧ c ≠ '\\' ∧ c ≠ '\r' ∧ next = .plain ∧ out = [c]) := by
  simp only [step, stepPlain]
  split_ifs with hquote hbackslash hreturn <;> simp_all [eq_comm]

theorem step_carriage_iff :
    step .text .carriage c = some (next, out) ↔ c = '\n' ∧ next = .plain ∧ out = ['\n'] := by
  simp only [step]
  split_ifs with hline <;> simp [hline, eq_comm]

theorem step_escape_iff :
    step .text .escape c = some (next, out) ↔
      (∃ d, (c, d) ∈ shortEscapes ∧ next = .plain ∧ out = [d]) ∨
        (c = 'x' ∧ next = .high ∧ out = []) ∨ (c = 'u' ∧ next = .brace ∧ out = []) ∨
        (c = '\n' ∧ next = .gap ∧ out = []) ∨ (c = '\r' ∧ next = .gapCarriage ∧ out = []) := by
  simp only [step]
  unfold stepEscape
  split <;> simp_all [shortEscapes, eq_comm]

theorem step_high_iff :
    step .text .high c = some (next, out) ↔
      ∃ m, hexValue? c = some m ∧ m < 8 ∧ next = .low m ∧ out = [] := by
  simp only [step]
  cases hexValue? c with
  | none => simp
  | some m =>
    by_cases hm : 8 ≤ m
    · simp [hm, Nat.not_lt.mpr hm]
    · simp [hm, Nat.not_le.mp hm, eq_comm]

theorem step_low_iff {m : Nat} :
    step .text (.low m) c = some (next, out) ↔
      ∃ n, hexValue? c = some n ∧ next = .plain ∧ out = [Char.ofNat (16 * m + n)] := by
  cases hc : hexValue? c <;> simp [step, hc, eq_comm]

theorem step_brace_iff :
    step .text .brace c = some (next, out) ↔ c = '{' ∧ next = .point 0 0 ∧ out = [] := by
  simp only [step]
  split_ifs with hbrace <;> simp [hbrace, eq_comm]

theorem step_point_iff {n k : Nat} :
    step .text (.point n k) c = some (next, out) ↔
      (c = '}' ∧ 0 < k ∧ n.isValidChar ∧ next = .plain ∧ out = [Char.ofNat n]) ∨
        (c = '_' ∧ 0 < k ∧ next = .point n k ∧ out = []) ∨
        ∃ d, hexValue? c = some d ∧ k ≠ 6 ∧ next = .point (16 * n + d) (k + 1) ∧ out = [] := by
  have hclose : hexValue? '}' = none := rfl
  have hunderscore : hexValue? '_' = none := rfl
  by_cases hc : c = '}'
  · subst hc
    by_cases hn : n.isValidChar <;> by_cases hk : 0 < k <;>
      simp [step, stepPointEnd, charOfPoint?, hclose, hn, hk, eq_comm]
  · by_cases hu : c = '_'
    · subst hu
      by_cases hk : 0 < k <;> simp [step, hunderscore, hk, eq_comm]
    · cases hd : hexValue? c with
      | none => simp [step, hc, hu, hd]
      | some d => by_cases hk : k = 6 <;> simp [step, hc, hu, hd, hk, eq_comm]

/-- A character that is no blank is read as if there had been no gap. -/
theorem step_gap_of_resumes (h : c ∉ '\r' :: gapBlanks) :
    step .text .gap c = step .text .plain c := by
  simp only [gapBlanks, List.mem_cons, List.not_mem_nil, or_false, not_or] at h
  obtain ⟨hreturn, hspace, htab, hline⟩ := h
  simp [step, hreturn, hspace, htab, hline]

theorem step_gap_iff :
    step .text .gap c = some (next, out) ↔
      (c ∈ gapBlanks ∧ next = .gap ∧ out = []) ∨ (c = '\r' ∧ next = .gapCarriage ∧ out = []) ∨
        (c ∉ '\r' :: gapBlanks ∧ step .text .plain c = some (next, out)) := by
  by_cases hblank : c ∈ gapBlanks
  · have hstep : step .text .gap c = some (.gap, []) := by
      simp only [gapBlanks, List.mem_cons, List.not_mem_nil, or_false] at hblank
      rcases hblank with rfl | rfl | rfl <;> rfl
    have hreturn : c ≠ '\r' := by
      rintro rfl
      exact absurd hblank (by decide)
    simp [hstep, hblank, hreturn, eq_comm]
  · by_cases hreturn : c = '\r'
    · have hstep : step .text .gap '\r' = some (.gapCarriage, []) := rfl
      subst hreturn
      simp [hstep, hblank, eq_comm]
    · have hresumes : c ∉ '\r' :: gapBlanks := by simp [hreturn, hblank]
      simp [step_gap_of_resumes hresumes, hreturn, hblank]

theorem step_gapCarriage_iff :
    step .text .gapCarriage c = some (next, out) ↔ c = '\n' ∧ next = .gap ∧ out = [] := by
  simp only [step]
  split_ifs with hline <;> simp [hline, eq_comm]

end Steps

/-! ### Steps in a row -/

/-- Nothing is read after the closing quote. -/
theorem scan_closed (f : Flavour) (s : List Char) : scan f .closed s = some ([], s) := by
  cases s <;> simp [scan]

/-- A step of the reading. -/
theorem scan_of_step {f : Flavour} {state next : Reading} {c : Char} {out : List Char}
    (hstep : step f state c = some (next, out)) (s : List Char) :
    scan f state (c :: s) = (scan f next s).map fun r => (out ++ r.1, r.2) := by
  have hopen : state ≠ .closed := by
    rintro rfl
    cases hstep
  rw [scan, if_neg hopen, hstep]

/-- A step that completes no character. -/
theorem scan_of_silent {f : Flavour} {state next : Reading} {c : Char}
    (hstep : step f state c = some (next, [])) (s : List Char) :
    scan f state (c :: s) = scan f next s := by
  rw [scan_of_step hstep]
  cases scan f next s <;> rfl

/-- What is read begins with a step. -/
theorem exists_step_of_scan {f : Flavour} {state : Reading} {s cs rest : List Char}
    (hopen : state ≠ .closed) (h : scan f state s = some (cs, rest)) :
    ∃ c s' next out cs', s = c :: s' ∧ step f state c = some (next, out) ∧ cs = out ++ cs' ∧
      scan f next s' = some (cs', rest) := by
  cases s with
  | nil =>
    rw [scan, if_neg hopen] at h
    cases h
  | cons c s =>
    rw [scan, if_neg hopen] at h
    cases hstep : step f state c with
    | none =>
      rw [hstep] at h
      cases h
    | some r =>
      rw [hstep] at h
      obtain ⟨⟨cs', rest'⟩, hscan, heq⟩ := Option.map_eq_some_iff.mp h
      obtain ⟨rfl, rfl⟩ := Prod.mk.inj heq
      exact ⟨c, s, r.1, r.2, cs', rfl, hstep, rfl, hscan⟩

/-- What follows a backslash. -/
theorem scan_backslash (s : List Char) :
    scan .text .plain ('\\' :: s) = scan .text .escape s :=
  scan_of_silent rfl s

/-! ### Reading what has the form -/

/-- A numeral has a digit. -/
theorem Numeral.count_pos {ds : List Char} {n k : Nat} (h : Numeral ds n k) : 0 < k := by
  induction h with
  | digit h => exact Nat.one_pos
  | more before h ih => exact Nat.succ_pos _
  | underscore before ih => exact ih

/-- The digits of a code point are read to their number. -/
theorem Numeral.scan {ds : List Char} {n k : Nat} (h : Numeral ds n k) (hk : k ≤ 6)
    (s : List Char) :
    Quoted.scan .text (.point 0 0) (ds ++ s) = Quoted.scan .text (.point n k) s := by
  induction h generalizing s with
  | digit h =>
    refine scan_of_silent (step_point_iff.mpr (.inr (.inr ⟨_, h, by decide, ?_, rfl⟩))) s
    rw [Nat.mul_zero, Nat.zero_add, Nat.zero_add]
  | more before h ih =>
    rw [List.append_assoc, ih (by omega)]
    exact scan_of_silent (step_point_iff.mpr (.inr (.inr ⟨_, h, by omega, rfl, rfl⟩))) s
  | underscore before ih =>
    rw [List.append_assoc, ih hk]
    exact scan_of_silent (step_point_iff.mpr (.inr (.inl ⟨rfl, before.count_pos, rfl, rfl⟩))) s

/-- A written character is read as the character. -/
theorem Form.scan {t : List Char} {c : Char} (h : Form t c) (s : List Char) :
    Quoted.scan .text .plain (t ++ s) =
      (Quoted.scan .text .plain s).map fun r => ([c] ++ r.1, r.2) := by
  cases h with
  | plain hquote hbackslash hreturn =>
    exact scan_of_step (step_plain_iff.mpr
      (.inr (.inr (.inr ⟨hquote, hbackslash, hreturn, rfl, rfl⟩)))) s
  | lineEnd =>
    refine (scan_of_silent (step_plain_iff.mpr (.inr (.inr (.inl ⟨rfl, rfl, rfl⟩)))) _).trans ?_
    exact scan_of_step (step_carriage_iff.mpr ⟨rfl, rfl, rfl⟩) s
  | escape h =>
    refine (scan_backslash _).trans ?_
    exact scan_of_step (step_escape_iff.mpr (.inl ⟨c, h, rfl, rfl⟩)) s
  | byte hhigh hm hlow =>
    refine (scan_backslash _).trans ?_
    refine (scan_of_silent (step_escape_iff.mpr (.inr (.inl ⟨rfl, rfl, rfl⟩))) _).trans ?_
    refine (scan_of_silent (step_high_iff.mpr ⟨_, hhigh, hm, rfl, rfl⟩) _).trans ?_
    exact scan_of_step (step_low_iff.mpr ⟨_, hlow, rfl, rfl⟩) s
  | @point ds n k digits hk hn =>
    refine (scan_backslash _).trans ?_
    refine (scan_of_silent (step_escape_iff.mpr (.inr (.inr (.inl ⟨rfl, rfl, rfl⟩)))) _).trans ?_
    refine (scan_of_silent (step_brace_iff.mpr ⟨rfl, rfl, rfl⟩) _).trans ?_
    refine (congrArg _ (List.append_assoc ds ['}'] s)).trans ?_
    rw [digits.scan hk]
    exact scan_of_step (step_point_iff.mpr (.inl ⟨rfl, digits.count_pos, hn, rfl, rfl⟩)) s

/-- Blanks after an escaped line end are passed over. -/
theorem Gap.scan {g : List Char} (h : Gap g) (s : List Char) :
    Quoted.scan .text .gap (g ++ s) = Quoted.scan .text .gap s := by
  induction h with
  | nil => rfl
  | blank h rest ih =>
    exact (scan_of_silent (step_gap_iff.mpr (.inl ⟨h, rfl, rfl⟩)) _).trans ih
  | lineEnd rest ih =>
    refine (scan_of_silent (step_gap_iff.mpr (.inr (.inl ⟨rfl, rfl, rfl⟩))) _).trans ?_
    exact (scan_of_silent (step_gapCarriage_iff.mpr ⟨rfl, rfl, rfl⟩) _).trans ih

/-- Other characters end the blanks. -/
theorem Resumes.scan {s : List Char} (h : Resumes s) :
    Quoted.scan .text .gap s = Quoted.scan .text .plain s := by
  cases s with
  | nil => rfl
  | cons c s => simp [Quoted.scan, step_gap_of_resumes (h c rfl)]

/-- Blanks that begin with a line end are passed over after a backslash. -/
theorem Gap.scan_escape {g : List Char} (h : Gap g) (hline : OpensLine g) (s : List Char) :
    Quoted.scan .text .escape (g ++ s) = Quoted.scan .text .gap s := by
  cases h with
  | nil => simp [OpensLine] at hline
  | @blank c g hc rest =>
    obtain rfl : c = '\n' := by
      rcases hline with hline | hline
      · exact Option.some.inj hline
      · obtain rfl := Option.some.inj hline
        exact absurd hc (by decide)
    exact (scan_of_silent rfl _).trans (rest.scan s)
  | lineEnd rest =>
    exact (scan_of_silent rfl _).trans ((scan_of_silent rfl _).trans (rest.scan s))

/-- A body is read to its closing quote, as the text it stands for. -/
theorem Body.scan {b cs : List Char} (h : Body b cs) (rest : List Char) :
    Quoted.scan .text .plain (b ++ '"' :: rest) = some (cs, rest) := by
  induction h with
  | nil => exact (scan_of_silent rfl rest).trans (scan_closed .text rest)
  | char first rest' ih =>
    rw [List.append_assoc, first.scan, ih]
    rfl
  | @gap g b cs blanks hline hrest rest' ih =>
    rw [List.cons_append, List.append_assoc, scan_backslash, blanks.scan_escape hline, ← ih]
    apply Resumes.scan
    intro c hc
    cases b with
    | nil =>
      obtain rfl := Option.some.inj hc
      decide
    | cons d b => exact hrest c hc

/-! ### The form of what is read -/

/-- What is read after digits of a code point ends them in a numeral and a brace. -/
theorem exists_numeral_of_scan {s ds cs rest : List Char} {n k : Nat} (hk : k ≤ 6)
    (hds : Numeral ds n k) (h : scan .text (.point n k) s = some (cs, rest)) :
    ∃ more n' k' s' cs', s = more ++ '}' :: s' ∧ Numeral (ds ++ more) n' k' ∧ k' ≤ 6 ∧
      n'.isValidChar ∧ cs = Char.ofNat n' :: cs' ∧ scan .text .plain s' = some (cs', rest) := by
  induction s generalizing ds n k with
  | nil => cases h
  | cons c s ih =>
    obtain ⟨c', s', next, out, cs, heq, hstep, rfl, hscan⟩ := exists_step_of_scan (by simp) h
    obtain ⟨rfl, rfl⟩ := List.cons.inj heq
    rcases step_point_iff.mp hstep with ⟨rfl, -, hn, rfl, rfl⟩ | ⟨rfl, -, rfl, rfl⟩ |
      ⟨d, hd, hsix, rfl, rfl⟩
    · exact ⟨[], n, k, s, cs, rfl, by simpa using hds, hk, hn, rfl, hscan⟩
    · obtain ⟨more, n', k', s', cs', rfl, hnum, hrest⟩ := ih hk hds.underscore hscan
      exact ⟨'_' :: more, n', k', s', cs', rfl, by simpa using hnum, hrest⟩
    · obtain ⟨more, n', k', s', cs', rfl, hnum, hrest⟩ := ih (by omega) (hds.more hd) hscan
      exact ⟨c :: more, n', k', s', cs', rfl, by simpa using hnum, hrest⟩

/-- What is read of a code point after its opening brace is a numeral and the closing brace. -/
theorem exists_point_of_scan {s cs rest : List Char}
    (h : scan .text (.point 0 0) s = some (cs, rest)) :
    ∃ ds n k s' cs', s = ds ++ '}' :: s' ∧ Numeral ds n k ∧ k ≤ 6 ∧ n.isValidChar ∧
      cs = Char.ofNat n :: cs' ∧ scan .text .plain s' = some (cs', rest) := by
  obtain ⟨c, s, next, out, cs, rfl, hstep, rfl, hscan⟩ := exists_step_of_scan (by simp) h
  rcases step_point_iff.mp hstep with ⟨-, hpos, -⟩ | ⟨-, hpos, -⟩ | ⟨d, hd, -, rfl, rfl⟩
  · exact absurd hpos (by decide)
  · exact absurd hpos (by decide)
  · rw [Nat.mul_zero, Nat.zero_add, Nat.zero_add] at hscan
    obtain ⟨more, n, k, s', cs', rfl, hnum, hrest⟩ :=
      exists_numeral_of_scan (by decide) (.digit hd) hscan
    exact ⟨c :: more, n, k, s', cs', rfl, hnum, hrest⟩

/-- What is read after an escaped line end is blanks, and then what is read on. -/
theorem exists_gap_of_scan {s cs rest : List Char} (h : scan .text .gap s = some (cs, rest)) :
    ∃ g s', s = g ++ s' ∧ Gap g ∧ Resumes s' ∧ scan .text .plain s' = some (cs, rest) := by
  induction hn : s.length using Nat.strongRecOn generalizing s cs with
  | ind n ih =>
    subst hn
    obtain ⟨c, s, next, out, cs, rfl, hstep, rfl, hscan⟩ := exists_step_of_scan (by decide) h
    rcases step_gap_iff.mp hstep with ⟨hblank, rfl, rfl⟩ | ⟨rfl, rfl, rfl⟩ | ⟨hresumes, -⟩
    · obtain ⟨g, s', rfl, hg, hs'⟩ := ih s.length (by simp) hscan rfl
      exact ⟨c :: g, s', rfl, hg.blank hblank, hs'⟩
    · obtain ⟨d, s, next, out, cs, rfl, hstep', rfl, hscan'⟩ :=
        exists_step_of_scan (by decide) hscan
      obtain ⟨rfl, rfl, rfl⟩ := step_gapCarriage_iff.mp hstep'
      obtain ⟨g, s', rfl, hg, hs'⟩ :=
        ih s.length (by simp only [List.length_cons]; omega) hscan' rfl
      exact ⟨'\r' :: '\n' :: g, s', rfl, hg.lineEnd, hs'⟩
    · have hc : Resumes (c :: s) := by
        rintro d hd
        obtain rfl := Option.some.inj hd
        exact hresumes
      exact ⟨[], c :: s, rfl, .nil, hc, hc.scan ▸ h⟩

/-- What is read after a backslash is the rest of an escape, or an escaped line end. -/
theorem exists_escape_of_scan {s cs rest : List Char}
    (h : scan .text .escape s = some (cs, rest)) :
    (∃ t c s' cs', s = t ++ s' ∧ Form ('\\' :: t) c ∧ cs = c :: cs' ∧
      scan .text .plain s' = some (cs', rest)) ∨
    ∃ g s', s = g ++ s' ∧ Gap g ∧ OpensLine g ∧ Resumes s' ∧
      scan .text .plain s' = some (cs, rest) := by
  obtain ⟨e, s, next, out, cs, rfl, hstep, rfl, hscan⟩ := exists_step_of_scan (by decide) h
  rcases step_escape_iff.mp hstep with ⟨c, hc, rfl, rfl⟩ | ⟨rfl, rfl, rfl⟩ | ⟨rfl, rfl, rfl⟩ |
    ⟨rfl, rfl, rfl⟩ | ⟨rfl, rfl, rfl⟩
  · exact .inl ⟨[e], c, s, cs, rfl, .escape hc, rfl, hscan⟩
  · obtain ⟨a, s, next, out, cs, rfl, hhigh, rfl, hscan₁⟩ := exists_step_of_scan (by decide) hscan
    obtain ⟨m, ha, hm, rfl, rfl⟩ := step_high_iff.mp hhigh
    obtain ⟨b, s, next, out, cs, rfl, hlow, rfl, hscan₂⟩ := exists_step_of_scan (by simp) hscan₁
    obtain ⟨n, hb, rfl, rfl⟩ := step_low_iff.mp hlow
    exact .inl ⟨['x', a, b], _, s, cs, rfl, .byte ha hm hb, rfl, hscan₂⟩
  · obtain ⟨c, s, next, out, cs, rfl, hbrace, rfl, hscan'⟩ := exists_step_of_scan (by decide) hscan
    obtain ⟨rfl, rfl, rfl⟩ := step_brace_iff.mp hbrace
    obtain ⟨ds, n, k, s, cs, rfl, hnum, hk, hn, rfl, hs⟩ := exists_point_of_scan hscan'
    exact .inl ⟨'u' :: '{' :: (ds ++ ['}']), _, s, cs, by simp, .point hnum hk hn, rfl, hs⟩
  · obtain ⟨g, s', rfl, hg, hresumes, hs'⟩ := exists_gap_of_scan hscan
    exact .inr ⟨'\n' :: g, s', rfl, hg.blank (by decide), .inl rfl, hresumes, hs'⟩
  · obtain ⟨c, s, next, out, cs, rfl, hline, rfl, hscan'⟩ := exists_step_of_scan (by decide) hscan
    obtain ⟨rfl, rfl, rfl⟩ := step_gapCarriage_iff.mp hline
    obtain ⟨g, s', rfl, hg, hresumes, hs'⟩ := exists_gap_of_scan hscan'
    exact .inr ⟨'\r' :: '\n' :: g, s', rfl, hg.lineEnd, .inr rfl, hresumes, hs'⟩

/-- What is read begins with the closing quote, a written character or an escaped line end. -/
theorem exists_part_of_scan {s cs rest : List Char} (h : scan .text .plain s = some (cs, rest)) :
    (s = '"' :: rest ∧ cs = []) ∨
    (∃ t c s' cs', s = t ++ s' ∧ t ≠ [] ∧ Form t c ∧ cs = c :: cs' ∧
      scan .text .plain s' = some (cs', rest)) ∨
    ∃ g s', s = '\\' :: (g ++ s') ∧ Gap g ∧ OpensLine g ∧ Resumes s' ∧
      scan .text .plain s' = some (cs, rest) := by
  obtain ⟨c, s, next, out, cs, rfl, hstep, rfl, hscan⟩ := exists_step_of_scan (by decide) h
  rcases step_plain_iff.mp hstep with ⟨rfl, rfl, rfl⟩ | ⟨rfl, rfl, rfl⟩ | ⟨rfl, rfl, rfl⟩ |
    ⟨hquote, hbackslash, hreturn, rfl, rfl⟩
  · rw [scan_closed] at hscan
    obtain ⟨rfl, rfl⟩ := Prod.mk.inj (Option.some.inj hscan)
    exact .inl ⟨rfl, rfl⟩
  · rcases exists_escape_of_scan hscan with ⟨t, c, s', cs', rfl, hform, hcs, hs'⟩ |
      ⟨g, s', rfl, hg, hline, hresumes, hs'⟩
    · exact .inr (.inl ⟨'\\' :: t, c, s', cs', rfl, List.cons_ne_nil _ _, hform, hcs, hs'⟩)
    · exact .inr (.inr ⟨g, s', rfl, hg, hline, hresumes, hs'⟩)
  · obtain ⟨c, s, next, out, cs, rfl, hline, rfl, hscan'⟩ := exists_step_of_scan (by decide) hscan
    obtain ⟨rfl, rfl, rfl⟩ := step_carriage_iff.mp hline
    exact .inr (.inl ⟨['\r', '\n'], '\n', s, cs, rfl, by simp, .lineEnd, rfl, hscan'⟩)
  · exact .inr (.inl ⟨[c], c, s, cs, rfl, by simp, .plain hquote hbackslash hreturn, rfl, hscan⟩)

/-- What is read up to a closing quote is a body. -/
theorem exists_body_of_scan {s cs rest : List Char} (h : scan .text .plain s = some (cs, rest)) :
    ∃ b, s = b ++ '"' :: rest ∧ Body b cs := by
  induction hn : s.length using Nat.strongRecOn generalizing s cs with
  | ind n ih =>
    subst hn
    rcases exists_part_of_scan h with ⟨rfl, rfl⟩ | ⟨t, c, s, cs, rfl, ht, hform, rfl, hs⟩ |
      ⟨g, s, rfl, hg, hline, hresumes, hs⟩
    · exact ⟨[], rfl, .nil⟩
    · have hlt := List.length_pos_iff.mpr ht
      obtain ⟨b, rfl, hb⟩ := ih s.length (by rw [List.length_append]; omega) hs rfl
      exact ⟨t ++ b, by simp, .char hform hb⟩
    · obtain ⟨b, rfl, hb⟩ :=
        ih s.length (by simp only [List.length_cons, List.length_append]; omega) hs rfl
      refine ⟨'\\' :: (g ++ b), by simp, .gap hg hline ?_ hb⟩
      intro c hc
      exact hresumes c (by cases b <;> simp_all)

/-- A text is read exactly up to the closing quote of a body, as what the body stands for. -/
theorem scan_eq_some_iff {s cs rest : List Char} :
    scan .text .plain s = some (cs, rest) ↔ ∃ b, s = b ++ '"' :: rest ∧ Body b cs := by
  constructor
  · exact exists_body_of_scan
  · rintro ⟨b, rfl, hb⟩
    exact hb.scan rest

/-! ### Writing -/

/-- The value of a digit. -/
theorem hexValue?_digitChar {n : Nat} (h : n < 16) : hexValue? (Nat.digitChar n) = some n := by
  revert n
  decide

/-- The digits of a number are a numeral of it. -/
theorem numeral_hexDigits (n : Nat) : Numeral (hexDigits n) n (hexDigits n).length := by
  induction n using Nat.strongRecOn with
  | ind n ih =>
    by_cases h : n < 16
    · rw [hexDigits, Nat.toDigits_of_lt_base h]
      exact .digit (hexValue?_digitChar h)
    · have hdigits : hexDigits n = hexDigits (n / 16) ++ [Nat.digitChar (n % 16)] :=
        Nat.toDigits_of_base_le (by decide) (by omega)
      have hmore := (ih (n / 16) (by omega)).more
        (hexValue?_digitChar (Nat.mod_lt n (by decide)))
      rw [Nat.div_add_mod] at hmore
      rw [hdigits, List.length_append]
      exact hmore

/-- Code points have at most six digits. -/
theorem length_hexDigits (c : Char) : (hexDigits c.toNat).length ≤ 6 := by
  rw [hexDigits, Nat.length_toDigits_le_iff (by decide) (by decide)]
  have hvalid := c.valid
  simp only [UInt32.isValidChar, Nat.isValidChar] at hvalid
  have htoNat : c.toNat = c.val.toNat := rfl
  omega

/-- A code point stands for its character. -/
theorem form_codePoint (c : Char) : Form (codePoint c) c := by
  have hform := Form.point (numeral_hexDigits c.toNat) (length_hexDigits c) c.valid
  rwa [Char.ofNat_toNat] at hform

/-- A character is written in one of its forms. -/
theorem form_spell (c : Char) : Form (spell c) c := by
  unfold spell
  split_ifs with hquote hbackslash htab hline hreturn hvisible
  · subst hquote
    exact .escape (by decide)
  · subst hbackslash
    exact .escape (by decide)
  · subst htab
    exact .escape (by decide)
  · subst hline
    exact .escape (by decide)
  · subst hreturn
    exact .escape (by decide)
  · exact .plain hquote hbackslash hreturn
  · exact form_codePoint c

/-- What is written for a text is a body that stands for it. -/
theorem body_encode (s : List Char) : Body (encode s) s := by
  induction s with
  | nil => exact .nil
  | cons c s ih =>
    rw [encode]
    by_cases hzero : c = '\x00'
    · subst hzero
      rw [if_pos rfl]
      refine .char ?_ ih
      split
      · exact .byte (m := 0) (n := 0) rfl (by decide) rfl
      · exact .escape (by decide)
    · rw [if_neg hzero]
      exact .char (form_spell c) ih

end Memoize.Text.Quoted
