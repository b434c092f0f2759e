import Memoize.Proofs.Grammar.Phrases

/-!
# Results that are alike

The results of the rules are alike if they agree on what other rules look at: which shape a type or
an expression has, which arguments a path has, whether a bound is a trait, and how their phrases
end.

## Implementation notes

Statements, functions and items are looked at by no rule, so that all of them are alike.
-/

namespace Memoize

open Memoize.Parser TokenTree Syntax

namespace Like

/-! ### Paths -/

section Paths

/-- Arguments that are of the same form, empty together and printed alike. -/
inductive ArgsAlike : SegmentArgs → SegmentArgs → Prop
  | none : ArgsAlike .none .none
  | angle {cs cs' : List Token} {o o' c c' : Token} {es es' : List Phrase}
      (empty : Like es.isEmpty es'.isEmpty)
      (printed : Like (Phrase.lifetimesFirst es) (.lifetimesFirst es')) (colons : Like cs cs') :
      ArgsAlike (.angle cs o es c) (.angle cs' o' es' c')
  | call {ps qs : List Phrase} (parts : Like ps qs) : ArgsAlike (.call ps) (.call qs)

instance : Likeness SegmentArgs := ⟨ArgsAlike⟩
instance : Likeness Segment := ⟨fun s s' => Like s.args s'.args⟩

instance : Likeness Path :=
  ⟨fun p q => Like p.leading q.leading ∧ Like p.head q.head ∧ Like p.tail q.tail⟩

instance : (a : SegmentArgs) → Like a a
  | .none => ⟨.none⟩
  | .angle _ _ _ _ => ⟨.angle inferInstance inferInstance inferInstance⟩
  | .call _ => ⟨.call inferInstance⟩

instance (s : Segment) : Like s s := ⟨inferInstanceAs (Like s.args s.args)⟩
instance (p : Path) : Like p p := ⟨inferInstance, inferInstance, inferInstance⟩

instance {cs cs' : List Token} {o o' c c' : Token}
    {es es' : List ((Bool × Phrase) × Option Token)} [h : Like cs cs'] [k : Like es es'] :
    Like (SegmentArgs.angle cs o (entries es) c) (.angle cs' o' (entries es') c') := by
  refine ⟨.angle ?_ inferInstance h⟩
  obtain ⟨_ | _⟩ := k <;> exact ⟨rfl⟩

instance {ps qs : List Phrase} [h : Like ps qs] : Like (SegmentArgs.call ps) (.call qs) :=
  ⟨.call h⟩

section Args

variable {a b : SegmentArgs} [h : Like a b]

instance : Like a.isEmpty b.isEmpty := by
  obtain ⟨_ | ⟨hempty, _, _⟩ | _⟩ := h
  · exact ⟨rfl⟩
  · exact hempty
  · exact ⟨rfl⟩

instance : Like a.isNone b.isNone := by
  obtain ⟨_ | _ | _⟩ := h <;> exact ⟨rfl⟩

instance : Like a.phrases b.phrases := by
  unfold SegmentArgs.phrases
  obtain ⟨_ | _ | _⟩ := h <;> infer_instance

end Args

instance {t u : Token} {a b : SegmentArgs} [h : Like a b] : Like (Segment.mk t a) ⟨u, b⟩ := ⟨h⟩
instance {s s' : Segment} [h : Like s s'] : Like s.args s'.args := h.holds

instance {s s' : Segment} [h : Like s s'] : Like s.phrases s'.phrases := by
  unfold Segment.phrases
  infer_instance

instance {l l' : List Token} {s s' : Segment} {ts ts' : List (List Token × Segment)}
    [hl : Like l l'] [hs : Like s s'] [ht : Like ts ts'] :
    Like (Path.mk l s ts) ⟨l', s', ts'⟩ := ⟨hl, hs, ht⟩

instance {t u : Token} : Like (Path.ofName t) (.ofName u) := by
  unfold Path.ofName
  infer_instance

section Parts

variable {p q : Path} [h : Like p q]

instance : Like p.leading q.leading := h.holds.1
instance : Like p.head q.head := h.holds.2.1
instance : Like p.tail q.tail := h.holds.2.2

instance : Like p.segments q.segments := by
  unfold Path.segments
  infer_instance

instance : Like p.last q.last := by
  unfold Path.last
  infer_instance

instance {a b : SegmentArgs} [k : Like a b] : Like (p.setLastArgs a) (q.setLastArgs b) := by
  unfold Path.setLastArgs
  have htail : Like p.tail.reverse q.tail.reverse := inferInstance
  obtain ⟨h⟩ := htail
  generalize p.tail.reverse = ts at h ⊢
  generalize q.tail.reverse = us at h ⊢
  cases h with
  | nil => infer_instance
  | @cons x y _ _ hxy hrest =>
    have := Like.of_forall₂ hrest
    infer_instance

instance : Like p.isPlain q.isPlain := by
  unfold Path.isPlain
  infer_instance

instance : Like p.phrases q.phrases := by
  unfold Path.phrases
  infer_instance

instance : Like p.phrase q.phrase := by
  unfold Path.phrase
  infer_instance

instance : Like p.type q.type := by
  unfold Path.type
  infer_instance

end Parts

/-! ### Qualified paths -/

instance : Likeness Qualifier :=
  ⟨fun q r => Like q.type r.type ∧ Like q.as? r.as? ∧ Like q.inside r.inside⟩

instance {o o' c c' : Token} {t t' : Phrase} {a a' : Option Token} {n n' : Nat}
    [ht : Like t t'] [ha : Like a a'] [hn : Like n n'] :
    Like (Qualifier.mk o t a n c) ⟨o', t', a', n', c'⟩ := ⟨ht, ha, hn⟩

instance (q : Qualifier) : Like q q := ⟨inferInstance, inferInstance, inferInstance⟩

instance {q r : Qualifier} {p p' : Path} [h : Like q r] [k : Like p p'] :
    Like (q.phrases p) (r.phrases p') := by
  have htype := h.holds.1
  have has := h.holds.2.1
  have hinside : q.inside = r.inside := h.holds.2.2.holds
  unfold Qualifier.phrases
  rw [hinside]
  split <;> infer_instance

end Paths

/-! ### Types and bounds -/

section Types

/-- Shapes that are the same, as far as they are told apart. -/
inductive ShapeAlike : TypeShape → TypeShape → Prop
  | path {q q' : Option Qualifier} {p p' : Path} (qualifier : Like q q') (path : Like p p') :
      ShapeAlike (.path q p) (.path q' p')
  | bounds (n : Nat) (trailing : Bool) : ShapeAlike (.bounds n trailing) (.bounds n trailing)
  | fragment {s t : TypeShape} (inner : ShapeAlike s t) : ShapeAlike (.fragment s) (.fragment t)
  | other : ShapeAlike .other .other

instance : Likeness TypeShape := ⟨ShapeAlike⟩
instance : Likeness ParsedType := ⟨fun s t => Like s.phrase t.phrase ∧ Like s.shape t.shape⟩
instance : Likeness Bound := ⟨fun a b => Like a.phrase b.phrase ∧ Like a.isTrait b.isTrait⟩

instance {q q' : Option Qualifier} {p p' : Path} [h : Like q q'] [k : Like p p'] :
    Like (TypeShape.path q p) (.path q' p') := ⟨.path h k⟩

instance {m n : Nat} {b c : Bool} [h : Like m n] [k : Like b c] :
    Like (TypeShape.bounds m b) (.bounds n c) := by
  obtain rfl : m = n := h.holds
  obtain rfl : b = c := k.holds
  exact ⟨.bounds m b⟩

instance {s t : TypeShape} [h : Like s t] : Like (TypeShape.fragment s) (.fragment t) :=
  ⟨.fragment h.holds⟩

instance : Like TypeShape.other .other := ⟨.other⟩

instance {p q : Phrase} {s t : TypeShape} [h : Like p q] [k : Like s t] :
    Like (ParsedType.mk p s) ⟨q, t⟩ := ⟨h, k⟩

instance {s t : ParsedType} [h : Like s t] : Like s.phrase t.phrase := h.holds.1
instance {s t : ParsedType} [h : Like s t] : Like s.shape t.shape := h.holds.2

/-- To compare two types, it is enough to consider the same form on both sides. -/
@[elab_as_elim]
theorem type_cases {s t : ParsedType} (h : Like s t) {motive : ParsedType → ParsedType → Prop}
    (path : ∀ q q' p p' r r', Like q q' → Like p p' → Like r r' →
      motive ⟨r, .path q p⟩ ⟨r', .path q' p'⟩)
    (bounds : ∀ n trailing r r', Like r r' →
      motive ⟨r, .bounds n trailing⟩ ⟨r', .bounds n trailing⟩)
    (fragment : ∀ k l r r', Like k l → Like r r' → motive ⟨r, .fragment k⟩ ⟨r', .fragment l⟩)
    (other : ∀ r r', Like r r' → motive ⟨r, .other⟩ ⟨r', .other⟩) : motive s t := by
  obtain ⟨r, k⟩ := s
  obtain ⟨r', l⟩ := t
  have hshape : Like k l := h.holds.2
  cases hshape.holds with
  | path hq hp => exact path _ _ _ _ _ _ hq hp h.holds.1
  | bounds n trailing => exact bounds n trailing _ _ h.holds.1
  | fragment inner => exact fragment _ _ _ _ ⟨inner⟩ h.holds.1
  | other => exact other _ _ h.holds.1

instance {p q : Phrase} [h : Like p q] : Like (ParsedType.plain p) (.plain q) := by
  unfold ParsedType.plain
  infer_instance

instance {q q' : Option Qualifier} {p p' : Path} [h : Like q q'] [k : Like p p'] :
    Like (ParsedType.ofPath q p) (.ofPath q' p') := by
  unfold ParsedType.ofPath
  obtain ⟨_ | _⟩ := h <;> infer_instance

instance {s t : TypeShape} [h : Like s t] : Like (pathOfShape s) (pathOfShape t) := by
  obtain ⟨h⟩ := h
  induction h with
  | path hq hp =>
    obtain ⟨_ | _⟩ := hq <;> simp only [pathOfShape] <;> infer_instance
  | bounds _ _ => exact ⟨.none⟩
  | fragment _ ih => exact ih
  | other => exact ⟨.none⟩

instance {p q : Phrase} {b c : Bool} [h : Like p q] [k : Like b c] :
    Like (Bound.mk p b) ⟨q, c⟩ := ⟨h, k⟩

instance {a b : Bound} [h : Like a b] : Like a.phrase b.phrase := h.holds.1
instance {a b : Bound} [h : Like a b] : Like a.isTrait b.isTrait := h.holds.2

end Types

/-! ### Patterns -/

section Patterns

instance : Likeness Pattern := ⟨fun p q => Like p.phrase q.phrase⟩

instance : Likeness ParsedPattern :=
  ⟨fun p q => Like p.pattern q.pattern ∧ Like p.isOpenRange q.isOpenRange⟩

instance {p q : Phrase} {t u : Option Token} {ns ms : List String} [h : Like p q] :
    Like (Pattern.mk p t ns) ⟨q, u, ms⟩ := ⟨h⟩

instance {p q : Pattern} [h : Like p q] : Like p.phrase q.phrase := h.holds

instance {p q : Pattern} {r r' o o' : Bool} [h : Like p q] [k : Like o o'] :
    Like (ParsedPattern.mk p r o) ⟨q, r', o'⟩ := ⟨h, k⟩

instance {p q : ParsedPattern} [h : Like p q] : Like p.pattern q.pattern := h.holds.1
instance {p q : ParsedPattern} [h : Like p q] : Like p.isOpenRange q.isOpenRange := h.holds.2

instance {ps qs : List Phrase} {ns ms : List String} [h : Like ps qs] :
    Like (ParsedPattern.plain ps ns) (.plain qs ms) := by
  unfold ParsedPattern.plain
  infer_instance

end Patterns

/-! ### Expressions -/

section Exprs

/-- Kinds that are the same, as far as they are told apart. -/
inductive KindAlike : ExprKind → ExprKind → Prop
  | same (k : ExprKind) : KindAlike k k
  | literal (ts us : List Token) : KindAlike (.literal ts) (.literal us)
  | group {k l : ExprKind} (inner : KindAlike k l) : KindAlike (.group k) (.group l)
  | path {q q' : Option Qualifier} {p p' : Path} (qualifier : Like q q') (path : Like p p') :
      KindAlike (.path q p) (.path q' p')

instance : Likeness ExprKind := ⟨KindAlike⟩

instance : Likeness Expr := ⟨fun e f =>
  Like e.kind f.kind ∧ Like e.phrase f.phrase ∧ Like e.attributed f.attributed⟩

instance (k : ExprKind) : Like k k := ⟨.same k⟩
instance {ts us : List Token} : Like (ExprKind.literal ts) (.literal us) := ⟨.literal ts us⟩

instance {k l : ExprKind} [h : Like k l] : Like (ExprKind.group k) (.group l) := ⟨.group h.holds⟩

instance {q q' : Option Qualifier} {p p' : Path} [h : Like q q'] [k : Like p p'] :
    Like (ExprKind.path q p) (.path q' p') := ⟨.path h k⟩

instance {b c : Bool} [h : Like b c] : Like (ExprKind.expansion b) (.expansion c) := by
  obtain rfl : b = c := h.holds
  infer_instance

section Parts

variable {e f : Expr} [h : Like e f]

instance : Like e.kind f.kind := h.holds.1
instance : Like e.phrase f.phrase := h.holds.2.1

end Parts

instance {k l : ExprKind} {p q : Phrase} {a b : Bool} [hk : Like k l] [hp : Like p q]
    [ha : Like a b] : Like (Expr.mk k p a) ⟨l, q, b⟩ := ⟨hk, hp, ha⟩

/-- To compare two expressions, it is enough to consider the same kind, two literals, two groups and
two paths. -/
@[elab_as_elim]
theorem expr_cases {e f : Expr} (h : Like e f) {motive : Expr → Expr → Prop}
    (same : ∀ k p q a, Like p q → motive ⟨k, p, a⟩ ⟨k, q, a⟩)
    (literal : ∀ ts us p q a, Like p q → motive ⟨.literal ts, p, a⟩ ⟨.literal us, q, a⟩)
    (group : ∀ k l p q a, Like k l → Like p q → motive ⟨.group k, p, a⟩ ⟨.group l, q, a⟩)
    (path : ∀ r r' s s' p q a, Like r r' → Like s s' → Like p q →
      motive ⟨.path r s, p, a⟩ ⟨.path r' s', q, a⟩) : motive e f := by
  obtain ⟨k, p, a⟩ := e
  obtain ⟨l, q, b⟩ := f
  have hkind : Like k l := h.holds.1
  have hphrase : Like p q := h.holds.2.1
  obtain rfl : a = b := h.holds.2.2.holds
  cases hkind.holds with
  | same => exact same _ _ _ _ hphrase
  | literal ts us => exact literal ts us _ _ _ hphrase
  | group inner => exact group _ _ _ _ _ ⟨inner⟩ hphrase
  | path hq hs => exact path _ _ _ _ _ _ _ hq hs hphrase

instance {k l : ExprKind} {ps qs : List Phrase} [hk : Like k l] [hp : Like ps qs] :
    Like (Expr.plain k ps) (.plain l qs) := by
  unfold Expr.plain
  infer_instance

end Exprs

/-! ### Attributes -/

section Attributes

instance : Likeness Attribute := ⟨fun _ _ => True⟩
instance : Likeness AttributeArgs := ⟨fun _ _ => True⟩
instance (a b : Attribute) : Like a b := ⟨trivial⟩
instance (a b : AttributeArgs) : Like a b := ⟨trivial⟩

instance (a b : Attribute) : Like a.phrase b.phrase := by
  constructor
  change ending _ = ending _
  simp only [Attribute.phrase, Phrase.tokens, Phrase.allTokens_cons, Phrase.allTokens_nil,
    ending_append, ending_cons, isBraced]
  rfl

instance {as bs : List Attribute} [h : Like as bs] :
    Like (Attribute.all as) (Attribute.all bs) := by
  unfold Attribute.all
  infer_instance

instance {as bs : List Attribute} {e f : Expr} [h : Like as bs] [k : Like e f] :
    Like (e.attach as) (f.attach bs) := by
  unfold Expr.attach
  obtain ⟨_ | ⟨_, hrest⟩⟩ := h
  · exact k
  · have := Like.of_forall₂ hrest
    refine expr_cases k ?_ ?_ ?_ ?_
    · intro l p q a hp
      cases l <;> infer_instance
    all_goals
      intros
      infer_instance

end Attributes

/-! ### Functions, statements and items -/

section Items

/-- Parameters that are both receivers, or both are none. -/
inductive InputAlike : Input → Input → Prop
  | receiver (r r' : Receiver) : InputAlike (.receiver r) (.receiver r')
  | typed (as bs : List Attribute) (p q : Pattern) (c c' : Token) (t t' : Phrase) :
      InputAlike (.typed as p c t) (.typed bs q c' t')

instance : Likeness Receiver := ⟨fun _ _ => True⟩
instance : Likeness Input := ⟨InputAlike⟩
instance : Likeness GenericParam := ⟨fun _ _ => True⟩

instance : Likeness Generics :=
  ⟨fun g g' => Like g.opening g'.opening ∧ Like g.phrase g'.phrase⟩

instance : Likeness Signature :=
  ⟨fun s t => Like s.output? t.output? ∧ Like s.conditions t.conditions⟩

instance : Likeness Statement := ⟨fun _ _ => True⟩
instance : Likeness Function := ⟨fun _ _ => True⟩
instance : Likeness Member := ⟨fun _ _ => True⟩
instance : Likeness TraitRef := ⟨fun _ _ => True⟩
instance : Likeness ImplBlock := ⟨fun _ _ => True⟩
instance : Likeness Item := ⟨fun _ _ => True⟩
instance : Likeness UseTree := ⟨fun t u => Like t.isRooted u.isRooted⟩

instance : Likeness TypeDefinition := ⟨fun d e =>
  Like d.hasBounds e.hasBounds ∧ Like d.hasValue e.hasValue ∧ Like d.head e.head ∧
    Like d.bounds e.bounds ∧ Like d.value e.value ∧ Like d.conditions e.conditions⟩

instance (a b : Receiver) : Like a b := ⟨trivial⟩
instance (a b : GenericParam) : Like a b := ⟨trivial⟩
instance (a b : Statement) : Like a b := ⟨trivial⟩
instance (a b : Function) : Like a b := ⟨trivial⟩
instance (a b : Member) : Like a b := ⟨trivial⟩
instance (a b : TraitRef) : Like a b := ⟨trivial⟩
instance (a b : ImplBlock) : Like a b := ⟨trivial⟩
instance (a b : Item) : Like a b := ⟨trivial⟩

instance {r r' : Receiver} : Like (Input.receiver r) (.receiver r') := ⟨.receiver r r'⟩

instance {as bs : List Attribute} {p q : Pattern} {c c' : Token} {t t' : Phrase} :
    Like (Input.typed as p c t) (.typed bs q c' t') :=
  ⟨.typed as bs p q c c' t t'⟩

instance : Like Generics.none Generics.none := ⟨⟨.none⟩, inferInstanceAs (Like Phrase.empty .empty)⟩

/-- Generic parameters in brackets end with a bracket, if they are printed. -/
theorem generics_phrase {o o' c c' : Token} {ps qs : List GenericParam} (h : Like ps qs) :
    Like (Generics.phrase ⟨some o, ps, some c⟩) (Generics.phrase ⟨some o', qs, some c'⟩) := by
  have hempty : ps.isEmpty = qs.isEmpty := (inferInstance : Like ps.isEmpty qs.isEmpty).holds
  unfold Generics.phrase
  dsimp only
  rw [hempty]
  split
  · infer_instance
  · constructor
    change ending _ = ending _
    simp only [Phrase.tokens, Phrase.ofToken?, Phrase.allTokens_cons, Phrase.allTokens_nil,
      ending_append, ending_cons, isBraced]
    rfl

instance {o o' c c' : Token} {ps qs : List GenericParam} [h : Like o o'] [k : Like ps qs] :
    Like (Generics.mk (some o) ps (some c)) ⟨some o', qs, some c'⟩ :=
  ⟨⟨.some h⟩, generics_phrase k⟩

section Parts

variable {g g' : Generics} [h : Like g g']

instance : Like g.opening g'.opening := h.holds.1
instance : Like g.phrase g'.phrase := h.holds.2

end Parts

instance {c c' a a' u u' : Option Token} {b b' v v' w w' : Phrase} {f f' n n' : Token}
    {g g' : Generics} {s s' : Option Span} {is is' : List (Input × Option Token)}
    {o o' : Option (List Token × Phrase)} [h : Like o o'] [k : Like w w'] :
    Like (Signature.mk c a u b f n g s is v o w)
      ⟨c', a', u', b', f', n', g', s', is', v', o', w'⟩ :=
  ⟨h, k⟩

section Parts

variable {s t : Signature} [h : Like s t]

instance : Like s.output? t.output? := h.holds.1
instance : Like s.conditions t.conditions := h.holds.2

instance : Like s.result t.result := by
  unfold Signature.result
  have ho : Like s.output? t.output? := inferInstance
  obtain ⟨ho⟩ := ho
  generalize s.output? = o at ho ⊢
  generalize t.output? = o' at ho ⊢
  obtain _ | _ := ho <;> infer_instance

instance : Like s.phrase t.phrase := by
  have hresult := (inferInstance : Like s.result t.result).ending_eq
  have hconditions := (inferInstance : Like s.conditions t.conditions).ending_eq
  constructor
  change ending _ = ending _
  simp only [Signature.phrase, Signature.inputList, Phrase.tokens, Phrase.allTokens_append,
    Phrase.allTokens_cons, Phrase.allTokens_nil, ending_append, ending_cons, isBraced, hresult,
    hconditions]
  -- the parameter list is there in any case, so what stands before it does not count
  cases ending t.conditions.tokens <;> cases ending t.result.tokens <;> rfl

end Parts

instance {p q : Phrase} {ns ms ps qs : List String} {b c r r' : Bool} [h : Like r r'] :
    Like (UseTree.mk p ns ps b r) ⟨q, ms, qs, c, r'⟩ := ⟨h⟩

instance {t u : UseTree} [h : Like t u] : Like t.isRooted u.isRooted := h.holds

instance {n n' s s' : Token} {b b' v v' : Bool} {hs hs' bs bs' vs vs' : List Phrase} {c c' : Phrase}
    [h₁ : Like b b'] [h₂ : Like v v'] [h₃ : Like hs hs'] [h₄ : Like bs bs'] [h₅ : Like vs vs']
    [h₆ : Like c c'] :
    Like (TypeDefinition.mk n b v hs bs vs c s) ⟨n', b', v', hs', bs', vs', c', s'⟩ :=
  ⟨h₁, h₂, h₃, h₄, h₅, h₆⟩

section Parts

variable {d e : TypeDefinition} [h : Like d e]

instance : Like d.hasBounds e.hasBounds := h.holds.1
instance : Like d.hasValue e.hasValue := h.holds.2.1
instance : Like d.head e.head := h.holds.2.2.1
instance : Like d.bounds e.bounds := h.holds.2.2.2.1
instance : Like d.value e.value := h.holds.2.2.2.2.1
instance : Like d.conditions e.conditions := h.holds.2.2.2.2.2

end Parts

end Items

end Like

end Memoize
