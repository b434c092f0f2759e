import Memoize.Proofs.Grammar.Agreement
import Memoize.Syntax.Grammar

/-!
# Phrases that are alike

The rules of the grammar look at the tokens of a phrase in two ways: whether there are any, and
whether the last of them is a group in braces. Two phrases are alike if they agree on both.

## Main statements

* `Like.ending_allTokens`: phrases in a row end alike if they do so one by one.
* `Like.ending_arrange`: so do lists that are printed with their lifetimes first.
-/

namespace Memoize

open Memoize.Parser TokenTree Syntax

/-! ### Ends of streams -/

/-- Whether a tree is in braces. -/
def isBraced : TokenTree → Bool
  | .group .brace _ _ => true
  | _ => false

/-- Whether the last tree of a stream is in braces, if there is one. -/
def ending (ts : List TokenTree) : Option Bool := ts.getLast?.map isBraced

/-- What a stream ends with decides, unless it is empty. -/
theorem ending_append (ts us : List TokenTree) :
    ending (ts ++ us) = (ending us).or (ending ts) := by
  unfold ending
  rw [List.getLast?_append]
  cases us.getLast? <;> simp

theorem ending_cons (t : TokenTree) (ts : List TokenTree) :
    ending (t :: ts) = (ending ts).or (some (isBraced t)) := ending_append [t] ts

theorem isEmpty_eq_ending (ts : List TokenTree) : ts.isEmpty = (ending ts).isNone := by
  unfold ending
  cases ts with
  | nil => rfl
  | cons t ts => simp [List.getLast?_cons]

/-- Streams that are alike end alike. -/
theorem TokenTree.Alike.ending_eq {ts us : List TokenTree} (h : Alike ts us) :
    ending ts = ending us := by
  induction h with
  | nil => rfl
  | leaf _ _ ih => simp only [ending_cons, ih, isBraced]
  | @group d _ _ _ _ _ _ _ _ ih => cases d <;> simp only [ending_cons, ih, isBraced]

/-- So many words in a row end alike. -/
theorem ending_leaves {ts us : List Token} (h : Like ts us) :
    ending (ts.map .leaf) = ending (us.map .leaf) := by
  obtain ⟨h⟩ := h
  induction h with
  | nil => rfl
  | cons _ _ ih => simp only [List.map_cons, ending_cons, ih, isBraced]

/-! ### Phrases -/

instance : Likeness Phrase := ⟨fun p q => ending p.tokens = ending q.tokens⟩

namespace Like

section Phrase

variable {p q r r' : Phrase} {ps qs : List Phrase} {t u : Token} {s s' : Option Span}

instance (p : Phrase) : Like p p := ⟨rfl⟩

theorem ending_eq (h : Like p q) : ending p.tokens = ending q.tokens := h.holds

/-- Phrases in a row end alike if they do so one by one. -/
theorem ending_allTokens (h : Like ps qs) :
    ending (Phrase.allTokens ps) = ending (Phrase.allTokens qs) := by
  obtain ⟨h⟩ := h
  induction h with
  | nil => rfl
  | cons h _ ih =>
    rw [Phrase.allTokens_cons, Phrase.allTokens_cons, ending_append, ending_append, ih,
      h.ending_eq]

instance : Like (Phrase.word t) (.word u) := ⟨rfl⟩
instance : Like (Phrase.lifetime t) (.lifetime u) := ⟨rfl⟩
instance : Like (Phrase.hole t) (.hole u) := ⟨rfl⟩

instance {ts us : List TokenTree} [h : Like ts us] : Like (Phrase.raw ts) (.raw us) :=
  ⟨h.holds.ending_eq⟩

instance {d e : Delimiter} [h : Like d e] : Like (Phrase.group d s ps) (.group e s' qs) := by
  obtain rfl : d = e := h.holds
  cases d <;> exact ⟨rfl⟩

instance {d : Delimiter} : Like (Phrase.wrapped d s p) (.wrapped d s' q) := by
  cases d <;> exact ⟨rfl⟩

instance [h : Like ps qs] : Like (Phrase.seq ps) (.seq qs) := ⟨ending_allTokens h⟩
instance [h : Like ps qs] : Like (Phrase.implTrait ps) (.implTrait qs) := ⟨ending_allTokens h⟩
instance [h : Like ps qs] : Like (Phrase.shielded ps) (.shielded qs) := ⟨ending_allTokens h⟩

instance {l l' : List Token} [h : Like ps qs] : Like (Phrase.named l t ps) (.named l' u qs) := by
  have hend := ending_allTokens h
  constructor
  change ending _ = ending _
  simp only [Phrase.tokens, ending_append, ending_cons, hend, isBraced]
  cases ending (Phrase.allTokens qs) <;> rfl

instance {a a' m m' : Option Token} [h : Like p q] [ha : Like a a'] [hm : Like m m'] :
    Like (Phrase.reference t a m p) (.reference u a' m' q) := by
  have hregion := ending_leaves (inferInstance : Like a.toList a'.toList)
  have hmutable := ending_leaves (inferInstance : Like m.toList m'.toList)
  constructor
  change ending _ = ending _
  simp only [Phrase.tokens, ending_cons, ending_append, h.ending_eq, hregion, hmutable, isBraced]

instance [h : Like p q] [h' : Like r r'] : Like (Phrase.late p r) (.late q r') := by
  constructor
  change ending _ = ending _
  simp only [Phrase.tokens, ending_append, h.ending_eq, h'.ending_eq]

instance : Like Phrase.empty .empty := ⟨rfl⟩

instance {o o' : Option Token} [h : Like o o'] : Like (Phrase.ofToken? o) (.ofToken? o') := by
  obtain ⟨_ | _⟩ := h <;> exact ⟨rfl⟩

instance {o o' : Option Phrase} [h : Like o o'] : Like (Phrase.ofOption o) (.ofOption o') := by
  unfold Phrase.ofOption
  infer_instance

instance {ts us : List Token} [h : Like ts us] : Like (Phrase.ofTokens ts) (.ofTokens us) := by
  unfold Phrase.ofTokens
  infer_instance

instance {es es' : List (Phrase × Option Token)} [h : Like es es'] :
    Like (Phrase.ofSeparated es) (.ofSeparated es') := by
  unfold Phrase.ofSeparated
  infer_instance

instance [h : Like p q] : Like p.tokens.isEmpty q.tokens.isEmpty := by
  rw [isEmpty_eq_ending, isEmpty_eq_ending, h.ending_eq]
  infer_instance

theorem endsInBrace_eq (p : Phrase) : endsInBrace p = (ending p.tokens).getD false := by
  unfold endsInBrace ending
  cases p.tokens.getLast? with
  | none => rfl
  | some t => rcases t with _ | ⟨_ | _ | _ | _, _, _⟩ <;> rfl

instance [h : Like p q] : Like (endsInBrace p) (endsInBrace q) := by
  rw [endsInBrace_eq, endsInBrace_eq, h.ending_eq]
  infer_instance

end Phrase

/-! ### Lists printed with their lifetimes first -/

section Rows

instance : Likeness Phrase.Row := ⟨fun r r' =>
  Like r.isLifetime r'.isLifetime ∧ ending r.value = ending r'.value ∧
    ending r.comma = ending r'.comma⟩

variable {rs rs' : List Phrase.Row}

instance {r r' : Phrase.Row} [h : Like r r'] : Like r.isLifetime r'.isLifetime := h.holds.1

instance {r r' : Phrase.Row} [h : Like r r'] : Like r.comma.isEmpty r'.comma.isEmpty := by
  rw [isEmpty_eq_ending, isEmpty_eq_ending, h.holds.2.2]
  infer_instance

/-- Rows that are alike end alike in a row. -/
theorem ending_rows (h : Like rs rs') :
    ending (rs.flatMap Phrase.Row.tokens) = ending (rs'.flatMap Phrase.Row.tokens) := by
  obtain ⟨h⟩ := h
  induction h with
  | nil => rfl
  | cons h _ ih =>
    simp only [List.flatMap_cons, ending_append, ih, Phrase.Row.tokens, h.holds.2.1, h.holds.2.2]

/-- Lists whose rows are alike end alike when they are arranged. -/
theorem ending_arrange (h : Like rs rs') :
    ending (Phrase.arrange rs) = ending (Phrase.arrange rs') := by
  have hlifetimes := ending_rows (inferInstance :
    Like (rs.filter (·.isLifetime)) (rs'.filter (·.isLifetime)))
  have hothers := ending_rows (inferInstance :
    Like (rs.filter (!·.isLifetime)) (rs'.filter (!·.isLifetime)))
  have hjoin : Like
      (((rs.filter (·.isLifetime)).getLast?.any fun r => r.comma.isEmpty) &&
        !(rs.filter (!·.isLifetime)).isEmpty)
      (((rs'.filter (·.isLifetime)).getLast?.any fun r => r.comma.isEmpty) &&
        !(rs'.filter (!·.isLifetime)).isEmpty) := inferInstance
  unfold Phrase.arrange
  simp only [ending_append, hlifetimes, hothers]
  rw [hjoin.holds]

end Rows

instance {es es' : List ((Bool × Phrase) × Option Token)} [h : Like es es'] :
    Like (Phrase.lifetimesFirst (entries es)) (.lifetimesFirst (entries es')) := by
  have hrows : Like (Phrase.rows (entries es)) (Phrase.rows (entries es')) := by
    obtain ⟨h⟩ := h
    induction h with
    | nil => exact ⟨.nil⟩
    | @cons e e' _ _ he _ ih =>
      have hcomma := ending_leaves (inferInstance : Like e.2.toList e'.2.toList)
      exact ⟨.cons ⟨he.holds.1.holds.1, he.holds.1.holds.2.ending_eq, hcomma⟩ ih.holds⟩
  exact ⟨ending_arrange hrows⟩

end Like

end Memoize
