import Memoize.Holder
import Memoize.Proofs.Grammar.Steps
import Memoize.Syntax.Grammar

/-!
# Fields of an instance

The expression `&self.name` is read in steps: the sign, the instance, the point and the name. Only
the last step looks at the name, and it reads those that may be declared, and `await`. Main
statement: exactly for these the expression is code (`parses_field_reference`).
-/

namespace Memoize.Syntax

open Parser TokenTree

variable (g : Grammar) (n : String) (span : Option Span)

/-! ### Names alone -/

/-- Of the keywords a name is only itself. -/
theorem isKeyword_name (k : String) : isKeyword k [.leaf ⟨.name n, span⟩] = (n == k) := by
  rw [Bool.eq_iff_iff]
  simp [isKeyword, headWord?, front, frontOf]

/-- A member is read off a name if it may be declared. -/
theorem member_name :
    member ⟨[.leaf ⟨.name n, span⟩], none⟩ =
      if isIdentifier n then .ok ((⟨.name n, span⟩, true), ⟨[], none⟩)
      else .error ⟨"expected identifier or integer", Place.ofSpan span, false⟩ := by
  unfold member
  rw [bind_of_ok (peek_eq _ _)]
  change (if isIdentifier n then _ else _ : Parser (Token × Bool)) _ = _
  cases h : isIdentifier n with
  | true =>
    have hread : name ⟨[.leaf ⟨.name n, span⟩], none⟩ = .ok (⟨.name n, span⟩, ⟨[], none⟩) := by
      change (if isIdentifier n then (do advance; return ⟨.name n, span⟩) else fail _ :
        Parser Token) _ = _
      rw [if_pos h]
      rfl
    rw [if_pos rfl, bind_of_ok hread]
    rfl
  | false => rfl

/-! ### Reading the expression -/

/-- A point and a name. -/
def access : List TokenTree := ofSign "." ++ [.leaf ⟨.name n, span⟩]

/-- The instance as an expression. -/
def instanceExpr : Expr :=
  let p : Path := ⟨[], ⟨⟨.name "self", none⟩, .none⟩, []⟩
  .plain (.path none p) [pathExpr none p]

/-- The expression for the instance with a point and a name after it. -/
def accessExpr : Expr :=
  .plain (if n = "await" then .await else .field)
    [instanceExpr.phrase, .word ⟨.mark '.' false, none⟩, .word ⟨.name n, span⟩]

/-- What is read at the instance with a point and a name after it. -/
def accessed : Except Fault (Expr × Stream) :=
  if n = "await" ∨ isIdentifier n then .ok (accessExpr n span, ⟨[], none⟩)
  else .error ⟨"expected identifier or integer", Place.ofSpan span, false⟩

/-- After the instance, a point and a name are read. -/
theorem trailers_instance : trailers g instanceExpr ⟨access n span, none⟩ = accessed n span := by
  have hfuel : totalWeight (access n span) + 2 = 3 + 1 := rfl
  have hposition : position ⟨access n span, none⟩ =
    .ok (access n span, ⟨access n span, none⟩) := rfl
  have hpoint : mark "." ⟨access n span, none⟩ =
    .ok (⟨.mark '.' false, none⟩, ⟨[.leaf ⟨.name n, span⟩], none⟩) := rfl
  unfold trailers loop
  rw [bind_of_ok (get_eq _), hfuel, iterate, bind_assoc, bind_of_ok hposition]
  dsimp only
  rw [if_neg (by exact Bool.false_ne_true), if_pos (by rfl), bind_assoc, bind_of_ok hpoint,
    bind_assoc, bind_of_ok (peek_eq _ _), if_neg (by exact Bool.false_ne_true), bind_assoc]
  unfold accessed
  -- Here the name comes next: first it is looked at as `await`, then as a member.
  by_cases hawait : n = "await"
  · subst hawait
    rfl
  · have hnext : isKeyword "await" [.leaf ⟨.name n, span⟩] = false := by
      simp [isKeyword_name, hawait]
    have hmember := member_name n span
    rw [bind_of_ok (keyword?_of_not hnext)]
    dsimp only
    rw [bind_assoc]
    by_cases hn : isIdentifier n = true
    · rw [if_pos hn] at hmember
      rw [bind_of_ok hmember, if_pos (.inr hn), accessExpr, if_neg hawait]
      rfl
    · rw [if_neg hn] at hmember
      rw [bind_of_error hmember, if_neg (by simp [hawait, hn])]

/-- The instance with a point and a name after it is an expression without an operator. -/
theorem unaryExpr_instance :
    unaryExpr g true ⟨ofName "self" :: access n span, none⟩ = accessed n span := by
  have hatom : atom g true ⟨ofName "self" :: access n span, none⟩ =
      .ok (instanceExpr, ⟨access n span, none⟩) := rfl
  change trailed g (ofName "self" :: access n span) [] true
    ⟨ofName "self" :: access n span, none⟩ = _
  unfold trailed
  rw [bind_of_ok hatom]
  have htrailers := trailers_instance g n span
  unfold accessed at htrailers ⊢
  by_cases hn : n = "await" ∨ isIdentifier n = true
  · rw [if_pos hn] at htrailers ⊢
    rw [bind_of_ok htrailers]
    by_cases hawait : n = "await" <;> simp only [accessExpr, hawait, if_true, if_false] <;> rfl
  · rw [if_neg hn] at htrailers ⊢
    rw [bind_of_error htrailers]

/-- An expression with the sign of a reference before it. -/
def borrowed (e : Expr) : Expr :=
  .plain .reference [.word ⟨.mark '&' false, none⟩, .ofToken? none, .ofToken? none, .ofToken? none,
    e.phrase]

/-- After the sign of a reference the instance is read with the point and the name. -/
theorem unaryExpr_borrowed :
    unaryExpr g.deepen true ⟨ofSign "&" ++ [ofName "self"] ++ access n span, none⟩ =
      (accessed n span).map fun r => (borrowed r.1, r.2) := by
  change (unaryExpr g true >>= fun e => pure (borrowed e) : Parser Expr)
    ⟨ofName "self" :: access n span, none⟩ = _
  have hinstance := unaryExpr_instance g n span
  cases haccessed : accessed n span with
  | error f =>
    rw [bind_of_error (hinstance.trans haccessed)]
    rfl
  | ok r =>
    rw [bind_of_ok (hinstance.trans haccessed)]
    rfl

end Memoize.Syntax

namespace Memoize

open Syntax Parser TokenTree

/-- The expression for a field of the instance is code if the field has a name that may be declared,
or the name `await`. -/
theorem parses_field_reference (n : String) (span : Option Span) :
    parses Grammar.anyExpr (Site.field ⟨.name n, span⟩).reference =
      (n == "await" || isIdentifier n) := by
  -- The expression is three levels deep; how deep the grammar is below does not matter.
  obtain ⟨g, hg⟩ : ∃ g : Grammar,
      Grammar.forTokens (Site.field ⟨.name n, span⟩).reference = g.deepen.deepen.deepen :=
    ⟨Grammar.upTo 93, rfl⟩
  have hread : g.deepen.deepen.deepen.anyExpr ⟨(Site.field ⟨.name n, span⟩).reference, none⟩ =
      ((unaryExpr g.deepen true >>= fun e => climb g.deepen e true .jump) >>= fun e =>
        pure e.phrase : Parser Phrase) ⟨ofSign "&" ++ [ofName "self"] ++ access n span, none⟩ := by
    simp only [Site.reference, access, List.append_assoc]
    rfl
  have hunary := unaryExpr_borrowed g n span
  unfold accessed at hunary
  unfold parses parse Parser.run
  rw [hg, hread, bind_assoc]
  by_cases hn : n = "await" ∨ isIdentifier n = true
  · rw [if_pos hn] at hunary
    rw [bind_of_ok hunary, show (n == "await" || isIdentifier n) = true by simpa using hn]
    rfl
  · rw [if_neg hn] at hunary
    rw [bind_of_error hunary, show (n == "await" || isIdentifier n) = false by simpa using hn]

end Memoize
