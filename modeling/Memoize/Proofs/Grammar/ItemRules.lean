import Memoize.Proofs.Grammar.ExprRules

/-!
# Rules for items

The rules for statements, functions and items do not tell hidden names apart. With them the grammar
is complete.

## Main statement

* `parses_eq`: streams that are alike have the form of the same rules.
-/

namespace Memoize.Syntax

open Memoize.Parser TokenTree Agree

set_option synthInstance.maxSize 1000000

variable {g : Grammar} [Blind g] {ts us : List TokenTree} [Like ts us] {as bs : List Attribute}
  [Like as bs] {b c d : Bool}

/-! ### Statements -/

instance : Agree (letStatement g as) (letStatement g bs) := by
  unfold letStatement
  infer_instance

instance : Agree (macroStatement? ts) (macroStatement? us) := by
  unfold macroStatement?
  infer_instance

instance : Like (opensItem ts) (opensItem us) := by
  unfold opensItem
  infer_instance

instance : Agree (exprStatement g as) (exprStatement g bs) := by
  unfold exprStatement
  infer_instance

instance : Agree (statement g) (statement g) := by
  unfold statement
  infer_instance

instance : Agree (statements g) (statements g) := by
  unfold statements
  infer_instance

/-! ### Functions -/

instance : Agree restriction restriction := by
  unfold restriction
  infer_instance

instance : Agree visibility visibility := by
  have hpub : Agree
      (do
        match ← keyword? "pub" with
        | some t => return .seq (.word t :: (← restriction))
        | none => return .empty : Parser Phrase)
      (do
        match ← keyword? "pub" with
        | some t => return .seq (.word t :: (← restriction))
        | none => return .empty) := inferInstance
  unfold visibility
  refine bind_of inferInstance fun s t h => ?_
  obtain ⟨rest, stray⟩ := s
  obtain ⟨rest', stray'⟩ := t
  have hrest : Like rest rest' := h.holds.1
  cases hrest.holds with
  | nil => exact hpub
  | leaf _ _ => exact hpub
  | @group d _ _ _ _ _ body more =>
    have : Like (α := List TokenTree) _ _ := ⟨more⟩
    cases d with
    | invisible =>
      cases body with
      | nil => infer_instance
      | leaf _ _ => exact hpub
      | group _ _ => exact hpub
    | _ => exact hpub

instance : Agree (generics g) (generics g) := by
  unfold generics
  infer_instance

instance : Like (endsConditions ts) (endsConditions us) := by
  unfold endsConditions
  infer_instance

instance : Agree (condition g) (condition g) := by
  unfold condition
  infer_instance

instance : Agree (conditions g) (conditions g) := by
  unfold conditions
  infer_instance

instance : Agree (receiver g) (receiver g) := by
  unfold receiver
  infer_instance

instance : Agree (result? g) (result? g) := by
  unfold result?
  infer_instance

instance : Agree (input g as) (input g bs) := by
  unfold input
  infer_instance

instance : Agree (inputs g) (inputs g) := by
  unfold inputs
  refine loop_of inferInstance fun acc acc' hacc => ?_
  have (x : Pair (Input × Option Token)) : Like
      (match x.left.1 with
        | .receiver _ => true
        | _ => false)
      (match x.right.1 with
        | .receiver _ => true
        | _ => false) := by
    obtain ⟨⟨i, _⟩, ⟨j, _⟩, h⟩ := x
    cases h.holds.1.holds <;> infer_instance
  refine bind_of inferInstance fun _ _ _ => ite_of inferInstance inferInstance ?_
  refine bind_of inferInstance fun _ _ _ => bind_of inferInstance fun o o' ho => ?_
  obtain ⟨_ | _⟩ := ho
  · infer_instance
  · refine bind_of inferInstance fun i j h => ?_
    obtain ⟨h | h⟩ := h
    · cases h.holds <;> infer_instance
    · infer_instance

instance : Agree (signature g) (signature g) := by
  unfold signature
  infer_instance

instance : Agree opensSignature opensSignature := by
  unfold opensSignature
  infer_instance

instance {v v' : Phrase} {d d' : Option Token} {s s' : Signature} :
    Agree (functionFrom g as v d s) (functionFrom g bs v' d' s') := by
  unfold functionFrom
  infer_instance

/-! ### Items -/

instance {ns ms : List String} : Agree (kept ts ns) (kept us ms) := by
  unfold kept
  infer_instance

instance {m : String} : Agree (newName m) (newName m) := by
  unfold newName
  infer_instance

instance [Like b c] : Agree (useTree g b) (useTree g c) := by
  unfold useTree
  infer_instance

instance : Agree (useItem g ts as) (useItem g us bs) := by
  unfold useItem
  infer_instance

instance : Agree (staticItem g ts as) (staticItem g us bs) := by
  unfold staticItem
  infer_instance

instance : Agree (constantFrom g) (constantFrom g) := by
  unfold constantFrom
  infer_instance

instance : Agree (constItem g ts as) (constItem g us bs) := by
  unfold constItem
  infer_instance

instance {p : ConditionPlace} : Agree (typeDefinition g b p) (typeDefinition g b p) := by
  unfold typeDefinition
  infer_instance

instance : Agree (typeItem g ts as) (typeItem g us bs) := by
  unfold typeItem
  infer_instance

instance : Agree (namedField g) (namedField g) := by
  unfold namedField
  infer_instance

instance : Agree (namedFields g) (namedFields g) := by
  unfold namedFields
  infer_instance

instance : Agree (tupleFields g) (tupleFields g) := by
  unfold tupleFields
  infer_instance

instance : Agree (structItem g as) (structItem g bs) := by
  unfold structItem
  infer_instance

instance : Agree (variant g) (variant g) := by
  unfold variant
  infer_instance

instance : Agree (enumItem g as) (enumItem g bs) := by
  unfold enumItem
  infer_instance

instance : Agree (unionItem g as) (unionItem g bs) := by
  unfold unionItem
  infer_instance

instance : Agree macroCall macroCall := by
  unfold macroCall
  infer_instance

instance : Agree (memberMacro as) (memberMacro bs) := by
  unfold memberMacro
  infer_instance

instance : Agree (macroItem as) (macroItem bs) := by
  unfold macroItem
  infer_instance

instance : Agree (macroDefinition ts) (macroDefinition us) := by
  unfold macroDefinition
  infer_instance

instance : Like (opensMacro ts) (opensMacro us) := by
  unfold opensMacro
  infer_instance

instance {p q : Phrase} [Like p q] :
    Like (foreignMember.isBlankPhrase p) (foreignMember.isBlankPhrase q) := by
  unfold foreignMember.isBlankPhrase
  infer_instance

instance : Agree (foreignMember g) (foreignMember g) := by
  unfold foreignMember
  infer_instance

instance : Agree (externBlock g as) (externBlock g bs) := by
  unfold externBlock
  infer_instance

instance : Agree (externCrate as) (externCrate bs) := by
  unfold externCrate
  infer_instance

instance : Agree (traitMember g) (traitMember g) := by
  unfold traitMember
  infer_instance

instance {n n' : Token} {ps qs : List Phrase} : Agree (traitFrom g n ps) (traitFrom g n' qs) := by
  unfold traitFrom
  infer_instance

instance : Agree (traitItem g as) (traitItem g bs) := by
  unfold traitItem
  infer_instance

instance : Like (opensGenerics ts) (opensGenerics us) := by
  unfold opensGenerics
  infer_instance

instance : Agree (implMember g) (implMember g) := by
  unfold implMember
  infer_instance

instance : Agree (implBlock g b) (implBlock g b) := by
  unfold implBlock
  cases b with
  | true =>
    simp only [if_true]
    infer_instance
  | false =>
    simp only [Bool.false_eq_true, if_false]
    infer_instance

instance : Agree (moduleItem g as) (moduleItem g bs) := by
  unfold moduleItem
  infer_instance

instance : Agree (implItem g ts) (implItem g us) := by
  unfold implItem
  infer_instance

instance : Agree (item g) (item g) := by
  unfold item
  infer_instance

/-! ### The whole grammar -/

instance : Blind Grammar.exhausted where
  expr _ := inferInstanceAs (Agree (fail _) (fail _))
  unary _ := inferInstanceAs (Agree (fail _) (fail _))
  climb _ _ _ _ _ := inferInstanceAs (Agree (fail _) (fail _))
  early := inferInstanceAs (Agree (fail _) (fail _))
  type _ _ := inferInstanceAs (Agree (fail _) (fail _))
  bound _ _ := inferInstanceAs (Agree (fail _) (fail _))
  pattern := inferInstanceAs (Agree (fail _) (fail _))
  patterns := inferInstanceAs (Agree (fail _) (fail _))
  statements := inferInstanceAs (Agree (fail _) (fail _))
  item := inferInstanceAs (Agree (fail _) (fail _))
  useTree _ _ _ := inferInstanceAs (Agree (fail _) (fail _))

instance : Blind g.deepen where
  expr b := inferInstanceAs (Agree (Syntax.anyExpr g b) (Syntax.anyExpr g b))
  unary b := inferInstanceAs (Agree (unaryExpr g b) (unaryExpr g b))
  climb e f b l _ := inferInstanceAs (Agree (Syntax.climb g e b l) (Syntax.climb g f b l))
  early := inferInstanceAs (Agree (earlyExpr g) (earlyExpr g))
  type b c := inferInstanceAs (Agree (Syntax.type g b c) (Syntax.type g b c))
  bound b c := inferInstanceAs (Agree (Syntax.bound g b c) (Syntax.bound g b c))
  pattern := inferInstanceAs (Agree (Syntax.pattern g) (Syntax.pattern g))
  patterns := inferInstanceAs (Agree (Syntax.patterns g) (Syntax.patterns g))
  statements := inferInstanceAs (Agree (Syntax.statements g) (Syntax.statements g))
  item := inferInstanceAs (Agree (Syntax.item g) (Syntax.item g))
  useTree b c _ := inferInstanceAs (Agree (Syntax.useTree g b) (Syntax.useTree g c))

instance blind_upTo (n : Nat) : Blind (Grammar.upTo n) := by
  induction n with
  | zero => exact (inferInstance : Blind Grammar.exhausted)
  | succ n ih => exact (inferInstance : Blind (Grammar.upTo n).deepen)

section Whole

variable {α : Type} [Likeness α] (rule : Grammar → Parser α)

/-- A rule accepts the same of two streams that are alike. -/
theorem parse_isOk_eq (hrule : ∀ (g : Grammar) [Blind g], Agree (rule g) (rule g))
    {ts us : List TokenTree} (h : Like ts us) :
    (parse rule ts).isOk = (parse rule us).isOk := by
  have hdepth : Grammar.forTokens ts = Grammar.forTokens us := by
    unfold Grammar.forTokens
    rw [h.holds.totalWeight_eq]
  have hblind : Blind (Grammar.forTokens us) := blind_upTo _
  unfold parse
  rw [hdepth]
  exact run_isOk (hrule (Grammar.forTokens us)) h

/-- Streams that are alike have the form of the same rules. -/
theorem parses_eq (hrule : ∀ (g : Grammar) [Blind g], Agree (rule g) (rule g))
    {ts us : List TokenTree} (h : Like ts us) : parses rule ts = parses rule us := by
  have hisOk (ts : List TokenTree) : parses rule ts = (parse rule ts).isOk := by
    unfold parses
    cases parse rule ts <;> rfl
  rw [hisOk, hisOk, parse_isOk_eq rule hrule h]

end Whole

/-- Of two streams that are alike both are blocks, or none is. -/
theorem parseBlock?_isSome_eq {ts us : List TokenTree} (h : Like ts us) :
    (parseBlock? ts).isSome = (parseBlock? us).isSome := by
  have hisSome {α : Type} (x : Except Fault α) : x.toOption.isSome = x.isOk := by
    cases x <;> rfl
  unfold parseBlock?
  rw [hisSome, hisSome]
  exact parse_isOk_eq _ (fun _ _ => inferInstance) h

end Memoize.Syntax
