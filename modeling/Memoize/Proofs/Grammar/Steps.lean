import Memoize.Syntax.Stream

/-!
# Steps of a parser

How a parser made of steps runs: each step goes on from where the one before it ended, and nothing
follows a step that fails. With the lemmas on single words and signs, a rule of the grammar is
evaluated one step at a time.
-/

namespace Memoize.Syntax

open Parser TokenTree

variable {α β : Type}

/-! ### One step after the other -/

/-- What follows a step that succeeds goes on from where it ended. -/
theorem bind_of_ok {p : Parser α} {s t : Stream} {a : α} (h : p s = .ok (a, t))
    (f : α → Parser β) : (p >>= f) s = f a t := by
  simp only [bind, StateT.bind, h, Except.bind]

/-- Nothing follows a step that fails. -/
theorem bind_of_error {p : Parser α} {s : Stream} {e : Fault} (h : p s = .error e)
    (f : α → Parser β) : (p >>= f) s = .error e := by
  simp only [bind, StateT.bind, h, Except.bind]

/-- A step and what follows it succeed if both do, one after the other. -/
theorem bind_eq_ok_iff {p : Parser α} {f : α → Parser β} {s : Stream} {r : β × Stream} :
    (p >>= f) s = .ok r ↔ ∃ a t, p s = .ok (a, t) ∧ f a t = .ok r := by
  cases h : p s with
  | error e => simp [bind_of_error h]
  | ok q =>
    rw [bind_of_ok h]
    constructor
    · exact fun hf => ⟨q.1, q.2, rfl, hf⟩
    · rintro ⟨a, t, heq, hf⟩
      obtain rfl := Except.ok.inj heq
      exact hf

/-- A result by itself moves nothing. -/
theorem pure_eq (a : α) (s : Stream) : (pure a : Parser α) s = .ok (a, s) := rfl

/-- Asking for the stream moves nothing. -/
theorem get_eq (s : Stream) : (get : Parser Stream) s = .ok (s, s) := rfl

/-- Looking ahead moves nothing. -/
theorem peek_eq (q : Peek) (s : Stream) : peek q s = .ok (q s.rest, s) := rfl

/-! ### Words and signs -/

/-- A keyword that does not come next is not read. -/
theorem keyword?_of_not {k : String} {s : Stream} (h : isKeyword k s.rest = false) :
    keyword? k s = .ok (none, s) := by
  unfold keyword?
  rw [bind_of_ok (peek_eq _ s), h]
  rfl

/-- Where another keyword comes next, a keyword does not. -/
theorem isKeyword_of_ne {j k : String} {ts : List TokenTree} (h : isKeyword j ts = true)
    (hne : j ≠ k) : isKeyword k ts = false := by
  simp only [isKeyword, beq_iff_eq] at h
  simp [isKeyword, h, hne]

/-- The head of a stream where a keyword comes next. -/
theorem front_of_isKeyword {k : String} {ts : List TokenTree} (h : isKeyword k ts = true) :
    ∃ span rest, front ts = .leaf ⟨.name k, span⟩ :: rest := by
  simp only [isKeyword, headWord?, beq_iff_eq] at h
  split at h
  · rename_i t rest hfront
    obtain ⟨word, span⟩ := t
    obtain rfl := Option.some.inj h
    exact ⟨span, rest, hfront⟩
  · cases h

/-- A keyword cannot be read where another one comes next. -/
theorem keyword_eq_error {j k : String} {s : Stream} (h : isKeyword j s.rest = true)
    (hne : j ≠ k) : ∃ e, keyword k s = .error e := by
  obtain ⟨span, rest, hfront⟩ := front_of_isKeyword h
  unfold keyword
  rw [bind_of_ok (get_eq s), hfront]
  simp only [hne, if_false]
  exact ⟨_, rfl⟩

/-- A keyword that comes next is read. -/
theorem keyword?_of_next {k : String} {s : Stream} (h : isKeyword k s.rest = true) :
    ∃ t, keyword? k s = .ok (some t, { s with rest := next s.rest }) := by
  obtain ⟨span, rest, hfront⟩ := front_of_isKeyword h
  have hread : keyword k s = .ok (⟨.name k, span⟩, { s with rest := next s.rest }) := by
    unfold keyword
    rw [bind_of_ok (get_eq s), hfront]
    simp only [if_true]
    rfl
  unfold keyword?
  rw [bind_of_ok (peek_eq _ s), h, if_pos rfl, bind_of_ok hread]
  exact ⟨_, rfl⟩

/-- Where a group comes next, no sign does. -/
theorem isSign_of_isGroup {d : Delimiter} {c : String} {ts : List TokenTree} (hc : c.toList ≠ [])
    (h : isGroup d ts = true) : isSign c ts = false := by
  have hhead : headWord? ts = none := by
    unfold isGroup at h
    unfold headWord?
    split at h
    · rename_i hfront
      rw [hfront]
    · cases h
  unfold isSign
  cases hchars : c.toList with
  | nil => exact absurd hchars hc
  | cons x more => simp only [isSignChars, hhead]

/-- A sign that does not come next cannot be read. -/
theorem mark_eq_error {c : String} {s : Stream} (h : isSign c s.rest = false) :
    ∃ e, mark c s = .error e := by
  have hsign : ∃ e, sign c s = .error e := by
    unfold sign
    rw [bind_of_ok (get_eq s), h,
      if_neg Bool.false_ne_true]
    exact ⟨_, rfl⟩
  obtain ⟨e, he⟩ := hsign
  unfold mark
  exact ⟨e, bind_of_error he _⟩

/-! ### Whole streams -/

/-- A whole stream is read if its rule ends without leaving anything behind. -/
theorem run_eq_ok_iff {p : Parser α} {ts : List TokenTree} {a : α} :
    Parser.run p ts = .ok a ↔ ∃ s, p ⟨ts, none⟩ = .ok (a, s) ∧
      (s.stray.orElse fun _ => stray? .invisible s.rest) = none := by
  unfold Parser.run
  cases p ⟨ts, none⟩ with
  | error e => simp
  | ok r =>
    obtain ⟨b, s⟩ := r
    dsimp only
    split
    · rename_i f hf
      refine iff_of_false (by simp) ?_
      rintro ⟨s', heq, hnone⟩
      obtain ⟨-, rfl⟩ := Prod.mk.inj (Except.ok.inj heq)
      rw [hf] at hnone
      cases hnone
    · rename_i hnone
      constructor
      · intro heq
        obtain rfl := Except.ok.inj heq
        exact ⟨s, rfl, hnone⟩
      · rintro ⟨s', heq, -⟩
        rw [(Prod.mk.inj (Except.ok.inj heq)).1]

end Memoize.Syntax
