import Memoize.Proofs.Grammar.Likeness

/-!
# Looking ahead

What is found by looking at the heads of two streams that are alike is the same: no keyword is a
hidden name, and every hidden name is an identifier.
-/

namespace Memoize

open Memoize.Parser TokenTree

/-! ### Words of the grammar -/

/-- A name that is not hidden. -/
class Shown (name : String) : Prop where
  notHidden : isHidden name = false

instance : Shown "Self" := ⟨by decide⟩
instance : Shown "_" := ⟨by decide⟩
instance : Shown "as" := ⟨by decide⟩
instance : Shown "async" := ⟨by decide⟩
instance : Shown "auto" := ⟨by decide⟩
instance : Shown "await" := ⟨by decide⟩
instance : Shown "become" := ⟨by decide⟩
instance : Shown "box" := ⟨by decide⟩
instance : Shown "break" := ⟨by decide⟩
instance : Shown "builtin" := ⟨by decide⟩
instance : Shown "const" := ⟨by decide⟩
instance : Shown "continue" := ⟨by decide⟩
instance : Shown "crate" := ⟨by decide⟩
instance : Shown "default" := ⟨by decide⟩
instance : Shown "dyn" := ⟨by decide⟩
instance : Shown "else" := ⟨by decide⟩
instance : Shown "enum" := ⟨by decide⟩
instance : Shown "extern" := ⟨by decide⟩
instance : Shown "false" := ⟨by decide⟩
instance : Shown "fn" := ⟨by decide⟩
instance : Shown "for" := ⟨by decide⟩
instance : Shown "if" := ⟨by decide⟩
instance : Shown "impl" := ⟨by decide⟩
instance : Shown "in" := ⟨by decide⟩
instance : Shown "let" := ⟨by decide⟩
instance : Shown "loop" := ⟨by decide⟩
instance : Shown "macro" := ⟨by decide⟩
instance : Shown "match" := ⟨by decide⟩
instance : Shown "mod" := ⟨by decide⟩
instance : Shown "move" := ⟨by decide⟩
instance : Shown "mut" := ⟨by decide⟩
instance : Shown "pub" := ⟨by decide⟩
instance : Shown "raw" := ⟨by decide⟩
instance : Shown "ref" := ⟨by decide⟩
instance : Shown "return" := ⟨by decide⟩
instance : Shown "safe" := ⟨by decide⟩
instance : Shown "self" := ⟨by decide⟩
instance : Shown "static" := ⟨by decide⟩
instance : Shown "struct" := ⟨by decide⟩
instance : Shown "super" := ⟨by decide⟩
instance : Shown "trait" := ⟨by decide⟩
instance : Shown "true" := ⟨by decide⟩
instance : Shown "try" := ⟨by decide⟩
instance : Shown "type" := ⟨by decide⟩
instance : Shown "union" := ⟨by decide⟩
instance : Shown "unsafe" := ⟨by decide⟩
instance : Shown "use" := ⟨by decide⟩
instance : Shown "where" := ⟨by decide⟩
instance : Shown "while" := ⟨by decide⟩
instance : Shown "yield" := ⟨by decide⟩

/-- No keyword is hidden. -/
theorem isIdentifier_of_isHidden {n : String} (h : isHidden n = true) : isIdentifier n = true := by
  have hnone : ∀ k ∈ keywords, isHidden k = false := by decide
  unfold isIdentifier
  simp only [List.contains_eq_mem, Bool.not_eq_true', decide_eq_false_iff_not]
  intro hmem
  exact absurd h (by simp [hnone n hmem])

/-- A hidden name is no word of the grammar. -/
theorem ne_of_isHidden {n : String} (h : isHidden n = true) (k : String) [hk : Shown k] :
    n ≠ k := by
  rintro rfl
  exact absurd h (by simp [hk.notHidden])

/-! ### What stands at the head -/

namespace Like

variable {ts us : List TokenTree} [h : Like ts us]

/-- What depends on the word at the head, and not on which hidden name it is, is the same. -/
theorem of_headWord (F : Option Word → Bool)
    (hF : ∀ m n, isHidden m = true → isHidden n = true →
      F (some (.name m)) = F (some (.name n))) :
    Like (F (headWord? ts)) (F (headWord? us)) := by
  rcases h.holds.headWord? with heq | ⟨m, n, hm, hn, hts, hus⟩
  · exact ⟨congrArg F heq⟩
  · rw [hts, hus]
    exact ⟨hF m n hm hn⟩

instance : Like (isAnyName ts) (isAnyName us) :=
  of_headWord (fun
    | some (.name _) => true
    | _ => false) fun _ _ _ _ => rfl

instance : Like (isName ts) (isName us) :=
  of_headWord (fun
    | some (.name n) => isIdentifier n
    | _ => false) fun _ _ hm hn =>
      (isIdentifier_of_isHidden hm).trans (isIdentifier_of_isHidden hn).symm

instance {k : String} [Shown k] : Like (isKeyword k ts) (isKeyword k us) :=
  of_headWord (· == some (.name k)) fun _ _ hm hn => by
    simp [ne_of_isHidden hm k, ne_of_isHidden hn k]

instance : Like (isKeywordOf [] ts) (isKeywordOf [] us) := ⟨rfl⟩

instance {k : String} {ks : List String} [Shown k]
    [hks : Like (isKeywordOf ks ts) (isKeywordOf ks us)] :
    Like (isKeywordOf (k :: ks) ts) (isKeywordOf (k :: ks) us) := by
  unfold isKeywordOf at hks ⊢
  simp only [List.any_cons]
  infer_instance

instance : Like (isLifetime ts) (isLifetime us) :=
  of_headWord (fun
    | some (.lifetime _) => true
    | _ => false) fun _ _ _ _ => rfl

instance {kinds : List LiteralKind} : Like (isLiteralOf kinds ts) (isLiteralOf kinds us) :=
  of_headWord (fun
    | some (.literal s) => kinds.contains (Literal.kind s)
    | _ => false) fun _ _ _ _ => rfl

instance : Like (isLiteral ts) (isLiteral us) := by
  have hnumber : Like (isLiteralOf [.whole, .fraction] (next ts))
      (isLiteralOf [.whole, .fraction] (next us)) := inferInstance
  unfold isLiteral
  rw [hnumber.holds]
  exact of_headWord (fun
    | some (.literal _) => true
    | some (.name n) => n == "true" || n == "false"
    | some (.mark '-' _) => isLiteralOf [.whole, .fraction] (next us)
    | _ => false) fun _ _ hm hn => by
      simp only [beq_false_of_ne (ne_of_isHidden hm _), beq_false_of_ne (ne_of_isHidden hn _)]

/-- Whether a word is a certain mark and more holds, given whether it is joined to the next. -/
def isMarkThen (c : Char) (more : Bool → Bool) : Option Word → Bool
  | some (.mark d joint) => c == d && more joint
  | _ => false

/-- A sign stands at both heads or at none. -/
theorem isSignChars_eq (cs : List Char) {ts us : List TokenTree} (h : Like ts us) :
    isSignChars cs ts = isSignChars cs us := by
  induction cs generalizing ts us with
  | nil => rfl
  | cons c more ih =>
    unfold isSignChars
    rw [ih (inferInstance : Like (next ts) (next us))]
    exact (of_headWord (isMarkThen c fun joint => more.isEmpty || (joint &&
      isSignChars more (next us))) fun _ _ _ _ => rfl).holds

instance {s : String} : Like (isSign s ts) (isSign s us) := ⟨isSignChars_eq s.toList h⟩

instance {d : Delimiter} : Like (isGroup d ts) (isGroup d us) := by
  have hfront := h.holds.front
  unfold isGroup
  generalize front ts = vs at hfront ⊢
  generalize front us = ws at hfront ⊢
  cases hfront <;> exact ⟨rfl⟩

instance : Like (isFragment ts) (isFragment us) := by
  obtain ⟨h⟩ := h
  unfold isFragment
  cases h with
  | nil => exact ⟨rfl⟩
  | leaf _ _ => exact ⟨rfl⟩
  | @group d _ _ _ _ _ _ _ => cases d <;> exact ⟨rfl⟩

end Like

end Memoize
