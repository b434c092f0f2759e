import Memoize.Proofs.Grammar.Results

/-!
# Rules for types

The rules for attributes, paths, bounds and types do not tell hidden names apart, if the rules that
they call do not.

## Implementation notes

The rules call each other through a `Grammar`, so that each of them is compared for any grammar
whose rules do not tell hidden names apart. Most rules are put together from parsers that agree, and
instance search finds that they agree themselves.
-/

namespace Memoize.Syntax

open Memoize.Parser TokenTree Agree

set_option synthInstance.maxSize 1000000

/-- A grammar whose rules do not tell hidden names apart. -/
class Blind (g : Grammar) : Prop where
  expr (b : Bool) : Agree (g.expr b) (g.expr b)
  unary (b : Bool) : Agree (g.unary b) (g.unary b)
  climb (e f : Expr) (b : Bool) (l : Level) [Like e f] : Agree (g.climb e b l) (g.climb f b l)
  early : Agree g.early g.early
  type (b c : Bool) : Agree (g.type b c) (g.type b c)
  bound (b c : Bool) : Agree (g.bound b c) (g.bound b c)
  pattern : Agree g.pattern g.pattern
  patterns : Agree g.patterns g.patterns
  statements : Agree g.statements g.statements
  item : Agree g.item g.item
  useTree (b c : Bool) [Like b c] : Agree (g.useTree b) (g.useTree c)

attribute [instance] Blind.expr Blind.unary Blind.climb Blind.early Blind.type Blind.bound
  Blind.pattern Blind.patterns Blind.statements Blind.item Blind.useTree

variable {g : Grammar} [Blind g] {ts us : List TokenTree} [Like ts us] {as bs : List Attribute}
  [Like as bs] {b c d : Bool}

instance : Agree g.anyType g.anyType := by
  unfold Grammar.anyType
  infer_instance

instance : Agree g.tightType g.tightType := by
  unfold Grammar.tightType
  infer_instance

instance : Agree g.anyExpr g.anyExpr := by
  unfold Grammar.anyExpr
  infer_instance

/-! ### Attributes -/

instance : Like (isPathWord ts) (isPathWord us) := by
  unfold isPathWord
  infer_instance

instance : Agree plainPath plainPath := by
  unfold plainPath
  infer_instance

instance : Agree attributePath attributePath := by
  unfold attributePath
  infer_instance

instance : Agree (attributeValue g) (attributeValue g) := by
  unfold attributeValue
  infer_instance

instance : Like (isList ts) (isList us) := by
  unfold isList
  infer_instance

instance : Agree (attributeContent g) (attributeContent g) := by
  unfold attributeContent
  infer_instance

instance {ms ms' : List Token} : Agree (attributeAfter g ms) (attributeAfter g ms') := by
  unfold attributeAfter
  infer_instance

instance : Agree (outerAttribute g) (outerAttribute g) := by
  unfold outerAttribute
  infer_instance

instance : Agree (outerAttributes g) (outerAttributes g) := by
  unfold outerAttributes
  infer_instance

instance : Agree (innerAttributes g) (innerAttributes g) := by
  unfold innerAttributes
  infer_instance

instance : Agree (exprAttributes g) (exprAttributes g) := by
  unfold exprAttributes
  infer_instance

instance : Agree (bareBlock g) (bareBlock g) := by
  unfold bareBlock
  infer_instance

instance : Agree (block g) (block g) := by
  unfold block
  infer_instance

/-! ### Paths -/

instance : Agree (valueArgument g) (valueArgument g) := by
  unfold valueArgument
  infer_instance

instance : Agree endsArgument endsArgument := by
  unfold endsArgument
  infer_instance

instance : Agree (argument g) (argument g) := by
  unfold argument
  refine bind_of inferInstance fun _ _ _ => bind_of inferInstance fun _ _ _ => ?_
  refine ite_of inferInstance inferInstance ?_
  refine bind_of inferInstance fun _ _ _ => bind_of inferInstance fun _ _ _ => ?_
  refine ite_of inferInstance inferInstance (bind_of inferInstance fun s t h => ?_)
  refine Like.type_cases h ?_ ?_ ?_ ?_
  · intro q q' _ _ _ _ hq _ _
    obtain ⟨_ | _⟩ := hq <;> infer_instance
  all_goals
    intros
    infer_instance

instance {cs cs' : List Token} [Like cs cs'] : Agree (angleArgs g cs) (angleArgs g cs') := by
  unfold angleArgs
  infer_instance

instance : Agree (tightResult g) (tightResult g) := by
  unfold tightResult
  infer_instance

instance : Agree (callArgs g) (callArgs g) := by
  unfold callArgs
  infer_instance

instance : Agree (segment g b) (segment g b) := by
  unfold segment
  infer_instance

instance {p q : Path} [Like p q] : Agree (moreSegments g b p) (moreSegments g b q) := by
  unfold moreSegments
  infer_instance

instance : Agree (path g b) (path g b) := by
  unfold path
  infer_instance

instance : Agree (qualifiedPath g b) (qualifiedPath g b) := by
  unfold qualifiedPath
  infer_instance

instance {q q' : Option Qualifier} {p p' : Path} [Like q q'] [Like p p'] :
    Agree (callsMacro q p) (callsMacro q' p') := by
  unfold callsMacro
  infer_instance

instance : Agree macroArgs macroArgs := by
  unfold macroArgs
  infer_instance

instance {o o' : Option Token} {bs bs' : List (Phrase × Option Token)} [Like o o'] [Like bs bs'] :
    Like (afterColon o bs) (afterColon o' bs') := by
  unfold afterColon
  infer_instance

instance {α : Type} [Likeness α] {stop stop' : Parser Bool} {p q : Parser α} [Agree stop stop']
    [Agree p q] : Agree (joined stop p) (joined stop' q) := by
  unfold joined
  infer_instance

/-! ### Generic parameters and bounds -/

instance : Agree (lifetimeParam as) (lifetimeParam bs) := by
  unfold lifetimeParam
  infer_instance

instance : Agree (typeParam g as) (typeParam g bs) := by
  unfold typeParam
  infer_instance

instance : Agree (constParam g as) (constParam g bs) := by
  unfold constParam
  infer_instance

instance : Agree (genericParam g) (genericParam g) := by
  unfold genericParam
  infer_instance

instance : Agree (binder g) (binder g) := by
  unfold binder
  infer_instance

instance : Agree (binder? g) (binder? g) := by
  unfold binder?
  infer_instance

instance : Like (opensBound ts) (opensBound us) := by
  unfold opensBound
  infer_instance

instance : Agree capture capture := by
  unfold capture
  infer_instance

instance : Agree callFollows callFollows := by
  unfold callFollows
  infer_instance

instance : Agree (traitPath g) (traitPath g) := by
  unfold traitPath
  infer_instance

instance : Agree (traitBound g b) (traitBound g b) := by
  unfold traitBound
  infer_instance

instance : Agree (bound g b c) (bound g b c) := by
  unfold bound
  infer_instance

instance : Agree (bounds g b c d) (bounds g b c d) := by
  unfold bounds
  infer_instance

instance {bs cs : List (Bound × Option Token)} [Like bs cs] :
    Like (boundPhrase bs) (boundPhrase cs) := by
  unfold boundPhrase
  infer_instance

/-! ### Types -/

instance : Agree (fragmentType g b) (fragmentType g b) := by
  unfold fragmentType
  refine bind_of inferInstance fun x y h => ?_
  obtain ⟨span, s⟩ := x
  obtain ⟨span', t⟩ := y
  have hspan : Like span span' := h.holds.1
  have htype : Like s t := h.holds.2
  refine Like.type_cases htype ?_ ?_ ?_ ?_ <;>
  · intros
    infer_instance

instance : Agree (moreBounds g) (moreBounds g) := by
  unfold moreBounds
  infer_instance

instance {m : String} {bs cs : List (Bound × Option Token)} [Like bs cs] :
    Agree (requireTrait ts m bs) (requireTrait us m cs) := by
  unfold requireTrait
  infer_instance

instance : Agree (objectBounds g ts b) (objectBounds g us b) := by
  unfold objectBounds
  infer_instance

instance {bs cs : List (Bound × Option Token)} [Like bs cs] :
    Like (objectShape bs) (objectShape cs) := by
  unfold objectShape
  infer_instance

instance : Agree (objectType g b) (objectType g b) := by
  unfold objectType
  infer_instance

instance : Agree (parenType g b) (parenType g b) := by
  unfold parenType
  refine bind_of inferInstance fun x y h => ?_
  obtain ⟨span, inner⟩ := x
  obtain ⟨span', inner'⟩ := y
  have hspan : Like span span' := h.holds.1
  have hinner : Like inner inner' := h.holds.2
  cases hinner.holds with
  | inr hp => infer_instance
  | @inl c c' hc =>
    obtain ⟨s, joined⟩ := c
    obtain ⟨t, joined'⟩ := c'
    have htype : Like s t := hc.holds.1
    obtain rfl : joined = joined' := hc.holds.2.holds
    refine Like.type_cases htype ?_ ?_ ?_ ?_
    · intro q q' _ _ _ _ hq _ _
      cases joined <;> obtain ⟨_ | _⟩ := hq <;> infer_instance
    all_goals
      intros
      cases joined <;> infer_instance

instance : Agree linkage linkage := by
  unfold linkage
  infer_instance

instance [Like b c] : Agree (bareParam g b) (bareParam g c) := by
  unfold bareParam
  infer_instance

instance : Agree (bareVariadic as) (bareVariadic bs) := by
  unfold bareVariadic
  infer_instance

instance : Agree opensVariadic opensVariadic := by
  unfold opensVariadic
  infer_instance

instance {ps qs : List Phrase} [Like ps qs] : Agree (bareFnType g ps) (bareFnType g qs) := by
  unfold bareFnType
  infer_instance

instance {ps qs : List Phrase} [Like ps qs] : Agree (pathType g ps b) (pathType g qs b) := by
  unfold pathType
  infer_instance

instance : Agree (implType g b) (implType g b) := by
  unfold implType
  infer_instance

instance : Agree (referenceType g) (referenceType g) := by
  unfold referenceType
  infer_instance

instance : Agree (pointerType g) (pointerType g) := by
  unfold pointerType
  infer_instance

instance : Agree (bracketType g) (bracketType g) := by
  unfold bracketType
  infer_instance

instance : Like (afterBinder ts) (afterBinder us) := by
  unfold afterBinder
  infer_instance

instance : Agree (type g b c) (type g b c) := by
  unfold type
  infer_instance

end Memoize.Syntax
