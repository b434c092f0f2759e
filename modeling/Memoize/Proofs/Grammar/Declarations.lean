import Memoize.Proofs.Grammar.Steps
import Memoize.Syntax.Grammar

/-!
# Function declarations without a body

A function declaration without a body consists of attributes, perhaps a visibility, a signature and
a semicolon. `declaration` reads those of traits, which have no visibility: what it reads without a
body is exactly what `bodiless` reads without a visibility (`parseDeclaration?_eq_some_false_iff`).

## Implementation notes

The two rules take the same steps up to the word `pub`. Where it comes next no signature can be read
(`signature_of_pub`), which is why a declaration with a visibility is none of a trait.
-/

namespace Memoize.Syntax

open Parser TokenTree

/-- A function declaration without a body: the word that opens its visibility, if it has one. -/
def bodiless (g : Grammar) : Parser (Option Token) := do
  let _ ← outerAttributes g
  let pub? ← keyword? "pub"
  let _ ← if pub?.isSome then restriction else pure []
  let _ ← signature g
  let _ ← mark ";"
  return pub?

/-- A function declaration without a body, and the word that opens its visibility. -/
def parseBodiless? (ts : List TokenTree) : Option (Option Token) := (parse bodiless ts).toOption

/-- No signature begins with the word of a visibility. -/
theorem signature_of_pub (g : Grammar) {s : Stream} (h : isKeyword "pub" s.rest = true) :
    ∃ e, signature g s = .error e := by
  obtain ⟨e, hfn⟩ := keyword_eq_error h (k := "fn") (by decide)
  have hlinkage : linkage s = .ok (Phrase.empty, s) := by
    unfold linkage
    rw [bind_of_ok (keyword?_of_not (isKeyword_of_ne h (by decide)))]
    rfl
  refine ⟨e, ?_⟩
  unfold signature
  rw [bind_of_ok (keyword?_of_not (isKeyword_of_ne h (by decide))),
    bind_of_ok (keyword?_of_not (isKeyword_of_ne h (by decide))),
    bind_of_ok (keyword?_of_not (isKeyword_of_ne h (by decide))), bind_of_ok hlinkage]
  exact bind_of_error hfn _

/-! ### Declarations -/

/-- What may follow the signature of a declaration: its body or a semicolon. -/
theorem ending_eq_ok_false_iff (g : Grammar) {s t : Stream} :
    (do
      if ← peek (isGroup .brace) then
        let _ ← block g
        return true
      else
        let _ ← if ← peek (isSign ";") then mark ";" else failExpected ["curly braces", "`;`"]
        return false : Parser Bool) s = .ok (false, t) ↔ ∃ semi, mark ";" s = .ok (semi, t) := by
  rw [bind_of_ok (peek_eq _ s)]
  cases hbrace : isGroup .brace s.rest with
  | true =>
    obtain ⟨e, he⟩ := mark_eq_error (isSign_of_isGroup (c := ";") (by decide) hbrace)
    rw [if_pos rfl, bind_eq_ok_iff, he]
    simp [pure_eq]
  | false =>
    rw [if_neg Bool.false_ne_true, bind_of_ok (peek_eq _ s)]
    cases hsemi : isSign ";" s.rest with
    | true =>
      rw [if_pos rfl, bind_eq_ok_iff]
      simp [pure_eq]
    | false =>
      obtain ⟨e, he⟩ := mark_eq_error hsemi
      rw [if_neg Bool.false_ne_true, he]
      have hfail : ∃ e', (failExpected ["curly braces", "`;`"] : Parser Token) s = .error e' :=
        ⟨_, rfl⟩
      obtain ⟨e', hfail⟩ := hfail
      rw [bind_of_error hfail]
      simp

/-- A declaration without a body is read alike by both rules if it has no visibility, and by the one
only if it has one. -/
theorem declaration_eq_ok_false_iff (g : Grammar) {s t : Stream} :
    declaration g s = .ok (false, t) ↔ bodiless g s = .ok (none, t) := by
  unfold declaration bodiless
  rw [bind_eq_ok_iff, bind_eq_ok_iff]
  refine exists_congr fun as => exists_congr fun s₁ => and_congr_right fun hattributes => ?_
  cases hpub : isKeyword "pub" s₁.rest with
  | true =>
    obtain ⟨e, hsignature⟩ := signature_of_pub g hpub
    obtain ⟨t₁, hread⟩ := keyword?_of_next hpub
    rw [bind_of_error hsignature, bind_of_ok hread, Option.isSome_some, if_pos rfl]
    refine iff_of_false (by simp) fun h => ?_
    simp only [bind_eq_ok_iff] at h
    obtain ⟨_, _, -, _, _, -, _, _, -, heq⟩ := h
    cases heq
  | false =>
    rw [bind_of_ok (keyword?_of_not hpub), Option.isSome_none, if_neg Bool.false_ne_true,
      bind_of_ok (pure_eq ([] : List Phrase) s₁),
      bind_eq_ok_iff, bind_eq_ok_iff]
    refine exists_congr fun sig => exists_congr fun s₂ => and_congr_right fun _ => ?_
    refine (ending_eq_ok_false_iff g).trans ?_
    rw [bind_eq_ok_iff]
    simp [pure_eq]

/-- A text that reads as a declaration of a trait without a body is one that reads as a declaration
without a body and without a visibility. -/
theorem parseDeclaration?_eq_some_false_iff {ts : List TokenTree} :
    parseDeclaration? ts = some false ↔ parseBodiless? ts = some none := by
  have hread {β : Type} (x : Except Fault β) (b : β) : x.toOption = some b ↔ x = .ok b := by
    cases x <;> simp [Except.toOption]
  unfold parseDeclaration? parseBodiless? parse
  rw [hread, hread, run_eq_ok_iff, run_eq_ok_iff]
  exact exists_congr fun s => and_congr_left fun _ => declaration_eq_ok_false_iff _

end Memoize.Syntax
