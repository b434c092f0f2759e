import Memoize.Syntax.Stream

/-!
# Hidden names

A name that begins with two underscores is hidden: no rule of the grammar knows it. Two streams are
alike if they differ in nothing but hidden names. What is found at the head of one of them is then
found at the head of the other.

## Implementation notes

Places of words do not count for the likeness of two streams, since no rule looks at them.
-/

namespace Memoize

/-- Whether a name begins with two underscores. -/
def isHidden (name : String) : Bool := ['_', '_'].isPrefixOf name.toList

/-- Equal words, or two hidden names. -/
inductive Word.Alike : Word → Word → Prop
  | same (w : Word) : Alike w w
  | hidden {m n : String} (hm : isHidden m = true) (hn : isHidden n = true) :
      Alike (.name m) (.name n)

namespace TokenTree

/-- Streams that differ in hidden names only. -/
inductive Alike : List TokenTree → List TokenTree → Prop
  | nil : Alike [] []
  | leaf {t u : Token} {ts us : List TokenTree} (word : t.word.Alike u.word)
      (rest : Alike ts us) : Alike (.leaf t :: ts) (.leaf u :: us)
  | group {d : Delimiter} {s : Option Span} {vs ws ts us : List TokenTree}
      (body : Alike vs ws) (rest : Alike ts us) :
      Alike (.group d s vs :: ts) (.group d s ws :: us)

namespace Alike

variable {ts us : List TokenTree}

/-- A stream is like itself. -/
theorem refl : (ts : List TokenTree) → Alike ts ts
  | [] => nil
  | .leaf t :: rest => leaf (.same t.word) (refl rest)
  | .group _ _ body :: rest => group (refl body) (refl rest)

/-- Streams that are alike part by part are alike. -/
theorem append {vs ws : List TokenTree} (first : Alike ts us) (second : Alike vs ws) :
    Alike (ts ++ vs) (us ++ ws) := by
  induction first with
  | nil => exact second
  | leaf word _ ih => exact leaf word ih
  | group body _ _ ih => exact group body ih

/-! ### The head of a stream -/

/-- Opening the invisible groups at the head keeps streams alike. -/
theorem front (h : Alike ts us) : Alike (TokenTree.front ts) (TokenTree.front us) := by
  induction h with
  | nil => exact nil
  | leaf word rest _ => exact leaf word rest
  | @group d s vs ws ts us body rest ihBody ihRest =>
    cases d with
    | invisible =>
      simp only [TokenTree.front, frontOf]
      generalize TokenTree.front vs = vs' at ihBody
      generalize TokenTree.front ws = ws' at ihBody
      cases ihBody with
      | nil => exact ihRest
      | leaf word more => exact leaf word (more.append rest)
      | group inner more => exact group inner (more.append rest)
    | parenthesis => exact group body rest
    | bracket => exact group body rest
    | brace => exact group body rest

/-- After the first visible tree, streams are still alike. -/
theorem next (h : Alike ts us) : Alike (Parser.next ts) (Parser.next us) := by
  have hfront := h.front
  unfold Parser.next
  generalize TokenTree.front ts = vs at hfront ⊢
  generalize TokenTree.front us = ws at hfront ⊢
  cases hfront with
  | nil => exact nil
  | leaf _ rest => exact rest
  | group _ rest => exact rest

/-- The words at the heads are the same, or two hidden names. -/
theorem headWord? (h : Alike ts us) :
    Parser.headWord? ts = Parser.headWord? us ∨
      ∃ m n, isHidden m = true ∧ isHidden n = true ∧
        Parser.headWord? ts = some (.name m) ∧ Parser.headWord? us = some (.name n) := by
  have hfront := h.front
  unfold Parser.headWord?
  generalize TokenTree.front ts = vs at hfront ⊢
  generalize TokenTree.front us = ws at hfront ⊢
  cases hfront with
  | nil => exact .inl rfl
  | @leaf t u _ _ word _ =>
    cases t
    cases u
    cases word with
    | same w => exact .inl rfl
    | hidden hm hn => exact .inr ⟨_, _, hm, hn, rfl, rfl⟩
  | group _ _ => exact .inl rfl

/-! ### Sizes -/

/-- The streams have the same weight. -/
theorem totalWeight_eq (h : Alike ts us) : totalWeight ts = totalWeight us := by
  induction h with
  | nil => rfl
  | leaf _ _ ih => simp only [totalWeight, weight, ih]
  | group _ _ ihBody ihRest => simp only [totalWeight, weight, ihBody, ihRest]

/-- The streams have as many visible trees. -/
theorem visible_eq (h : Alike ts us) : visible ts = visible us := by
  induction h with
  | nil => rfl
  | leaf _ _ ih => simp only [visible, visibleOf, ih]
  | @group d _ _ _ _ _ _ _ ihBody ihRest =>
    cases d <;> simp only [visible, visibleOf, ihBody, ihRest]

/-- The beginnings with as many visible trees are alike. -/
theorem takeVisible (h : Alike ts us) (n : Nat) :
    Alike (TokenTree.takeVisible n ts) (TokenTree.takeVisible n us) := by
  induction h generalizing n with
  | nil => exact nil
  | leaf word rest ih =>
    simp only [TokenTree.takeVisible, visibleOf, takeOf]
    by_cases hn : n = 0
    · simp only [hn, if_true, nil]
    · have hone : 1 ≤ n := by omega
      simp only [hn, hone, if_true, if_false]
      exact leaf word (ih _)
  | @group d s vs ws ts us body rest ihBody ihRest =>
    by_cases hn : n = 0
    · simp only [TokenTree.takeVisible, hn, if_true, nil]
    · have hone : 1 ≤ n := by omega
      cases d with
      | invisible =>
        simp only [TokenTree.takeVisible, visibleOf, takeOf, body.visible_eq, hn, if_false]
        by_cases hfits : visible ws ≤ n
        · simp only [hfits, if_true]
          exact group body (ihRest _)
        · simp only [hfits, if_false]
          exact ihBody n
      | parenthesis =>
        simp only [TokenTree.takeVisible, visibleOf, hn, hone, if_true, if_false]
        exact group body (ihRest _)
      | bracket =>
        simp only [TokenTree.takeVisible, visibleOf, hn, hone, if_true, if_false]
        exact group body (ihRest _)
      | brace =>
        simp only [TokenTree.takeVisible, visibleOf, hn, hone, if_true, if_false]
        exact group body (ihRest _)

end Alike

end TokenTree

end Memoize
