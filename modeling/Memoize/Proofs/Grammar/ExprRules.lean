import Memoize.Proofs.Grammar.TypeRules

/-!
# Rules for patterns and expressions

The rules for patterns and expressions do not tell hidden names apart, if the rules that they call
do not.
-/

namespace Memoize.Syntax

open Memoize.Parser TokenTree Agree

set_option synthInstance.maxSize 1000000

variable {g : Grammar} [Blind g] {ts us : List TokenTree} [Like ts us] {as bs : List Attribute}
  [Like as bs] {e f : Expr} [Like e f] {k l : ExprKind} [Like k l] {b c d : Bool}

/-! ### Patterns -/

instance : Like (isBar ts) (isBar us) := by
  unfold isBar
  infer_instance

instance {o o' : Option Token} [Like o o'] : Agree (alternatives g o) (alternatives g o') := by
  unfold alternatives
  infer_instance

instance : Agree (patterns g) (patterns g) := by
  unfold patterns
  infer_instance

instance : Agree (rangeSign b) (rangeSign b) := by
  unfold rangeSign
  refine bind_of inferInstance fun _ _ _ => ite_of inferInstance inferInstance ?_
  refine bind_of inferInstance fun _ _ _ => ite_of inferInstance ?_ inferInstance
  refine ite_of inferInstance (bind_of inferInstance fun dots dots' hdots => ?_) inferInstance
  rcases hdots with ⟨_ | ⟨_, _ | ⟨_, _ | ⟨_, _ | ⟨_, hmore⟩⟩⟩⟩⟩
  · infer_instance
  · infer_instance
  · infer_instance
  · infer_instance
  · have := Like.of_forall₂ hmore
    infer_instance

instance {q q' : Option Qualifier} {p p' : Path} [Like q q'] [Like p p'] :
    Like (pathExpr q p) (pathExpr q' p') := by
  unfold pathExpr
  obtain ⟨_ | _⟩ := ‹Like q q'› <;> infer_instance

instance : Like (endsRangePattern ts) (endsRangePattern us) := by
  unfold endsRangePattern
  infer_instance

instance : Agree (rangeBound g) (rangeBound g) := by
  unfold rangeBound
  infer_instance

instance {p q : Phrase} [Like p q] : Agree (rangeFrom g p) (rangeFrom g q) := by
  unfold rangeFrom
  infer_instance

instance : Agree (rangeTo g) (rangeTo g) := by
  unfold rangeTo
  infer_instance

instance : Agree member member := by
  unfold member
  refine bind_of inferInstance fun _ _ _ => ite_of inferInstance inferInstance ?_
  refine bind_of inferInstance fun _ _ _ => ite_of inferInstance ?_ inferInstance
  refine @bind_literalOf _ _ _ _ _ _ fun w p q => ?_
  dsimp only [Word.text]
  split <;> infer_instance

instance : Agree (fieldPattern g) (fieldPattern g) := by
  unfold fieldPattern
  infer_instance

instance {p q : Phrase} [Like p q] : Agree (structPattern g p) (structPattern g q) := by
  unfold structPattern
  infer_instance

instance : Agree (pathPattern g) (pathPattern g) := by
  unfold pathPattern
  infer_instance

instance : Agree (namePattern g) (namePattern g) := by
  unfold namePattern
  infer_instance

instance : Agree (literalPattern g) (literalPattern g) := by
  unfold literalPattern
  infer_instance

instance : Agree (parenPattern g) (parenPattern g) := by
  unfold parenPattern
  infer_instance

instance : Agree (slicePattern g) (slicePattern g) := by
  unfold slicePattern
  infer_instance

instance : Like (opensPath ts) (opensPath us) := by
  unfold opensPath
  infer_instance

instance : Agree (pattern g) (pattern g) := by
  unfold pattern
  infer_instance

/-! ### Expressions -/

/-- The same operator stands at the heads of streams that are alike. -/
theorem operator?_eq {ts us : List TokenTree} (h : Like ts us) : operator? ts = operator? us := by
  unfold operator?
  congr 1
  funext o
  exact (inferInstance : Like (isSign o.1 ts) (isSign o.1 us)).holds

instance : Like (levelAhead ts) (levelAhead us) := by
  unfold levelAhead
  rw [operator?_eq ‹Like ts us›]
  split <;> infer_instance

instance {l : Level} : Agree (rightOperand g b l) (rightOperand g b l) := by
  unfold rightOperand
  refine bind_of inferInstance fun _ _ hfirst => loop_of hfirst fun e f h => ?_
  refine bind_of inferInstance fun start start' hstart => ?_
  have hahead : levelAhead start = levelAhead start' :=
    (inferInstance : Like (levelAhead start) (levelAhead start')).holds
  dsimp only
  rw [hahead]
  infer_instance

instance : Like (endsRange b ts) (endsRange b us) := by
  unfold endsRange
  infer_instance

instance : Agree (rangeEnd g b) (rangeEnd g b) := by
  unfold rangeEnd
  infer_instance

instance : Agree checkCast checkCast := by
  unfold checkCast
  infer_instance

instance {l : Level} : Agree (climb g e b l) (climb g f b l) := by
  unfold climb
  refine loop_of ‹_› fun e f h => bind_of inferInstance fun ts us hts => ?_
  rw [operator?_eq hts]
  refine Like.expr_cases h ?_ ?_ ?_ ?_
  · intro k _ _ _ _
    cases k <;> cases operator? us <;> infer_instance
  all_goals
    intros
    cases operator? us <;> infer_instance

instance {d : Delimiter} : Agree (exprGroup g d) (exprGroup g d) := by
  unfold exprGroup
  infer_instance

instance : Agree (parenExpr g) (parenExpr g) := by
  unfold parenExpr
  infer_instance

instance : Agree (bracketExpr g) (bracketExpr g) := by
  unfold bracketExpr
  infer_instance

instance {w : String} {p q : Option Span} :
    Agree (fractionFields ⟨.literal w, p⟩) (fractionFields ⟨.literal w, q⟩) := by
  unfold fractionFields
  have hread (part : String) : Agree
      (match Literal.wholeValue? part with
        | some (n, "") =>
          if n < 4294967296 then return Phrase.word ⟨.literal (toString n), p⟩
          else failAt "number too large to fit in target type" [.leaf ⟨.literal w, p⟩]
        | some _ => failAt "expected unsuffixed integer" [.leaf ⟨.literal w, p⟩]
        | none => failAt "expected integer literal" [.leaf ⟨.literal w, p⟩])
      (match Literal.wholeValue? part with
        | some (n, "") =>
          if n < 4294967296 then return Phrase.word ⟨.literal (toString n), q⟩
          else failAt "number too large to fit in target type" [.leaf ⟨.literal w, q⟩]
        | some _ => failAt "expected unsuffixed integer" [.leaf ⟨.literal w, q⟩]
        | none => failAt "expected integer literal" [.leaf ⟨.literal w, q⟩]) := by
    split <;> infer_instance
  infer_instance

instance : Agree (trailers g e) (trailers g f) := by
  unfold trailers
  refine loop_of inferInstance fun x y h => bind_of inferInstance fun ts us hts => ?_
  obtain ⟨e, dots⟩ := x
  obtain ⟨f, dots'⟩ := y
  have hexpr : Like e f := h.holds.1
  have hdots : Like dots dots' := h.holds.2
  obtain ⟨_ | _⟩ := hdots
  · refine Like.expr_cases hexpr ?_ ?_ ?_ ?_ <;>
    · intros
      infer_instance
  · infer_instance

instance : Agree (structFields g) (structFields g) := by
  unfold structFields
  infer_instance

instance {q q' : Option Qualifier} {p p' : Path} [Like q q'] [Like p p'] :
    Agree (afterPath g q p b) (afterPath g q' p' b) := by
  unfold afterPath
  infer_instance

instance : Agree (fragmentExpr g b) (fragmentExpr g b) := by
  have hafter {q q' : Option Qualifier} {p p' : Path} {s s' : Option Span} (hq : Like q q')
      (hp : Like p p') (hs : Like s s') :
      Agree
        (do
          let p' ← moreSegments g true p
          let e ← afterPath g q p' b
          match e.kind with
          | .path _ _ =>
            if p'.tail.length = p.tail.length then
              return Expr.plain (.group e.kind) [.group .invisible s [e.phrase]]
            else return e
          | _ => return e)
        (do
          let p'' ← moreSegments g true p'
          let e ← afterPath g q' p'' b
          match e.kind with
          | .path _ _ =>
            if p''.tail.length = p'.tail.length then
              return Expr.plain (.group e.kind) [.group .invisible s' [e.phrase]]
            else return e
          | _ => return e) := by
    refine bind_of inferInstance fun _ _ _ => bind_of inferInstance fun e f h => ?_
    refine Like.expr_cases h ?_ ?_ ?_ ?_
    · intro k _ _ _ _
      cases k <;> infer_instance
    all_goals
      intros
      infer_instance
  unfold fragmentExpr
  refine bind_of inferInstance fun x y h => ?_
  obtain ⟨span, e⟩ := x
  obtain ⟨span', f⟩ := y
  have hspan : Like span span' := h.holds.1
  have hexpr : Like e f := h.holds.2
  refine Like.expr_cases hexpr ?_ ?_ ?_ ?_
  · intro k _ _ a _
    cases k with
    | path q r =>
      cases a with
      | true => infer_instance
      | false => exact hafter inferInstance inferInstance hspan
    | _ => infer_instance
  · intros
    infer_instance
  · intros
    infer_instance
  · intro q q' r r' _ _ a hq hr _
    cases a with
    | true => infer_instance
    | false => exact hafter hq hr hspan

instance : Agree (closureParam g) (closureParam g) := by
  unfold closureParam
  infer_instance

instance : Agree (closure g b) (closure g b) := by
  unfold closure
  infer_instance

instance : Like (opensExpr ts) (opensExpr us) := by
  unfold opensExpr
  infer_instance

instance : Agree (breakExpr g b) (breakExpr g b) := by
  unfold breakExpr
  infer_instance

instance {kind : ExprKind} {k : String} [Shown k] :
    Agree (wordWithValue g kind k) (wordWithValue g kind k) := by
  unfold wordWithValue
  infer_instance

instance : Agree (letExpr g b) (letExpr g b) := by
  unfold letExpr
  infer_instance

instance : Agree (ifExpr g) (ifExpr g) := by
  unfold ifExpr
  infer_instance

instance : Agree (whileExpr g) (whileExpr g) := by
  unfold whileExpr
  infer_instance

instance : Agree (forExpr g) (forExpr g) := by
  unfold forExpr
  infer_instance

instance : Agree (loopExpr g) (loopExpr g) := by
  unfold loopExpr
  infer_instance

instance : Like (needsEnd k) (needsEnd l) := by
  unfold needsEnd
  cases ‹Like k l›.holds <;> infer_instance

instance : Like (needsSemicolon k) (needsSemicolon l) := by
  unfold needsSemicolon
  cases ‹Like k l›.holds <;> infer_instance

instance : Agree (arm g) (arm g) := by
  unfold arm
  infer_instance

instance : Agree (matchExpr g) (matchExpr g) := by
  unfold matchExpr
  infer_instance

instance : Agree (blockExpr g) (blockExpr g) := by
  unfold blockExpr
  infer_instance

instance {kind : ExprKind} {k : String} [Shown k] :
    Agree (wordBlock g kind k) (wordBlock g kind k) := by
  unfold wordBlock
  infer_instance

instance : Agree (labeled g) (labeled g) := by
  unfold labeled
  infer_instance

instance : Agree (asyncExpr g) (asyncExpr g) := by
  unfold asyncExpr
  infer_instance

instance {p q : Parser Unit} [Agree p q] : Agree (keptExpr p) (keptExpr q) := by
  unfold keptExpr
  infer_instance

instance : Like (bindsClosure ts) (bindsClosure us) := by
  unfold bindsClosure
  infer_instance

instance : Like (opensClosure ts) (opensClosure us) := by
  unfold opensClosure
  infer_instance

instance : Like (opensAsync ts) (opensAsync us) := by
  unfold opensAsync
  infer_instance

instance : Like (opensPathExpr ts) (opensPathExpr us) := by
  unfold opensPathExpr
  infer_instance

instance : Agree (atom g b) (atom g b) := by
  unfold atom
  infer_instance

instance : Agree (trailed g ts as b) (trailed g us bs b) := by
  unfold trailed
  refine bind_of inferInstance fun _ _ _ => bind_of inferInstance fun e f h => ?_
  have hattributes := ‹Like as bs›
  obtain ⟨_ | ⟨_, hrest⟩⟩ := hattributes
  · refine Like.expr_cases h ?_ ?_ ?_ ?_
    · intro k _ _ _ _
      cases k <;> infer_instance
    all_goals
      intros
      infer_instance
  · have := Like.of_forall₂ hrest
    refine Like.expr_cases h ?_ ?_ ?_ ?_
    · intro k _ _ _ _
      cases k <;> infer_instance
    all_goals
      intros
      infer_instance

instance : Agree (unaryExpr g b) (unaryExpr g b) := by
  unfold unaryExpr
  infer_instance

instance : Agree (anyExpr g b) (anyExpr g b) := by
  unfold anyExpr
  infer_instance

instance : Like (continues k) (continues l) := by
  obtain ⟨h⟩ := ‹Like k l›
  induction h with
  | same => infer_instance
  | literal _ _ => exact ⟨rfl⟩
  | group _ ih => exact ih
  | path _ _ => exact ⟨rfl⟩

instance : Agree (earlyExpr g) (earlyExpr g) := by
  unfold earlyExpr
  infer_instance

end Memoize.Syntax
