import Memoize.Proofs.Grammar.Lookahead

/-!
# Parsers that agree

Two parsers agree if on streams that are alike both fail, or both succeed with results that are
alike and leave streams that are alike. Parsers that are put together from parsers that agree do so
too, and those that read single tokens or groups agree with themselves.

## Implementation notes

Agreement is a class like likeness, so that instance search follows the way in which a parser is put
together. Where a parser goes on depending on the form of a result, the search considers the two
sides together: a list is empty on both or on none, and an option is given on both or on none.
-/

namespace Memoize

open Memoize.Parser TokenTree

/-- Outcomes that are both failures, or both results that are alike. -/
inductive EndAlike {α : Type} [Likeness α] : Except Fault α → Except Fault α → Prop
  | ok {a b : α} (like : Like a b) : EndAlike (.ok a) (.ok b)
  | error (f g : Fault) : EndAlike (.error f) (.error g)

/-- Two parsers that end alike on streams that are alike. -/
class Agree {α : Type} [Likeness α] (p q : Parser α) : Prop where
  run (s t : Stream) : Like s t → EndAlike (p s) (q t)

namespace Agree

variable {α β σ : Type} [Likeness α] [Likeness β] [Likeness σ]

/-! ### Putting parsers together -/

/-- To compare what two parsers do, it is enough to consider that both succeed and that both fail.
-/
@[elab_as_elim]
theorem run_cases {p q : Parser α} (hp : Agree p q) {s t : Stream} (hs : Like s t)
    {motive : Except Fault (α × Stream) → Except Fault (α × Stream) → Prop}
    (ok : ∀ a b s t, Like a b → Like s t → motive (.ok (a, s)) (.ok (b, t)))
    (error : ∀ f g, motive (.error f) (.error g)) : motive (p s) (q t) := by
  have hrun := hp.run s t hs
  generalize p s = x at hrun ⊢
  generalize q t = y at hrun ⊢
  cases hrun with
  | ok h => exact ok _ _ _ _ h.holds.1 h.holds.2
  | error f g => exact error f g

/-- Parsers agree one after the other. -/
theorem bind_of {p q : Parser α} {f f' : α → Parser β} (hp : Agree p q)
    (hf : ∀ a b, Like a b → Agree (f a) (f' b)) : Agree (p >>= f) (q >>= f') := by
  constructor
  intro s t h
  change EndAlike (p s >>= fun r => f r.1 r.2) (q t >>= fun r => f' r.1 r.2)
  refine run_cases hp h ?_ ?_
  · intro a b s t hab hst
    exact (hf a b hab).run s t hst
  · exact .error

instance {p q : Parser α} {f f' : α → Parser β} [hp : Agree p q]
    [hf : ∀ x : Pair α, Agree (f x.left) (f' x.right)] : Agree (p >>= f) (q >>= f') :=
  bind_of hp fun _ _ h => hf ⟨_, _, h⟩

instance (priority := low) {p q : Parser (Option α)} {f f' : Option α → Parser β} [hp : Agree p q]
    [hnone : Agree (f none) (f' none)]
    [hsome : ∀ x : Pair α, Agree (f (some x.left)) (f' (some x.right))] :
    Agree (p >>= f) (q >>= f') := by
  refine bind_of hp fun o o' ho => ?_
  obtain ⟨h | _⟩ := ho
  · exact hsome ⟨_, _, h⟩
  · exact hnone

instance (priority := low) {p q : Parser (List α)} {f f' : List α → Parser β} [hp : Agree p q]
    [hnil : Agree (f []) (f' [])]
    [hcons : ∀ (x : Pair α) (y : Pair (List α)),
      Agree (f (x.left :: y.left)) (f' (x.right :: y.right))] :
    Agree (p >>= f) (q >>= f') := by
  refine bind_of hp fun as bs h => ?_
  obtain ⟨_ | ⟨h, hrest⟩⟩ := h
  · exact hnil
  · exact hcons ⟨_, _, h⟩ ⟨_, _, ⟨hrest⟩⟩

instance (priority := low) {p q : Parser (Option α × β)} {f f' : Option α × β → Parser σ}
    [hp : Agree p q] [hnone : ∀ y : Pair β, Agree (f (none, y.left)) (f' (none, y.right))]
    [hsome : ∀ (x : Pair α) (y : Pair β),
      Agree (f (some x.left, y.left)) (f' (some x.right, y.right))] :
    Agree (p >>= f) (q >>= f') := by
  refine bind_of hp fun x y h => ?_
  obtain ⟨o, b⟩ := x
  obtain ⟨o', b'⟩ := y
  have ho : Like o o' := h.holds.1
  obtain ⟨h' | _⟩ := ho
  · exact hsome ⟨_, _, h'⟩ ⟨_, _, h.holds.2⟩
  · exact hnone ⟨_, _, h.holds.2⟩

instance (priority := low) {p q : Parser (α × Option β)} {f f' : α × Option β → Parser σ}
    [hp : Agree p q] [hnone : ∀ x : Pair α, Agree (f (x.left, none)) (f' (x.right, none))]
    [hsome : ∀ (x : Pair α) (y : Pair β),
      Agree (f (x.left, some y.left)) (f' (x.right, some y.right))] :
    Agree (p >>= f) (q >>= f') := by
  refine bind_of hp fun x y h => ?_
  obtain ⟨a, o⟩ := x
  obtain ⟨b, o'⟩ := y
  have ho : Like o o' := h.holds.2
  obtain ⟨h' | _⟩ := ho
  · exact hsome ⟨_, _, h.holds.1⟩ ⟨_, _, h'⟩
  · exact hnone ⟨_, _, h.holds.1⟩

instance {a b : α} [h : Like a b] : Agree (pure a : Parser α) (pure b) :=
  ⟨fun _ _ hs => .ok ⟨h, hs⟩⟩

instance {f f' : α → β} {p q : Parser α} [hp : Agree p q]
    [hf : ∀ x : Pair α, Like (f x.left) (f' x.right)] : Agree (f <$> p) (f' <$> q) := by
  rw [map_eq_pure_bind, map_eq_pure_bind]
  infer_instance

section Branches

variable {p q p' q' : Parser α}

/-- Parsers agree if they take the same branch, and the branches agree. -/
theorem ite_of {b c : Bool} (h : Like b c) (hp : Agree p p') (hq : Agree q q') :
    Agree (if b = true then p else q) (if c = true then p' else q') := by
  obtain rfl : b = c := h.holds
  split <;> assumption

variable [hp : Agree p p'] [hq : Agree q q']

instance {b c : Bool} [h : Like b c] :
    Agree (if b = true then p else q) (if c = true then p' else q') := ite_of h hp hq

instance {k l m n : Nat} [h : Like k m] [h' : Like l n] :
    Agree (if k = l then p else q) (if m = n then p' else q') := by
  obtain rfl : k = m := h.holds
  obtain rfl : l = n := h'.holds
  split <;> assumption

instance {d e f : Delimiter} [h : Like d e] :
    Agree (if d = f then p else q) (if e = f then p' else q') := by
  obtain rfl : d = e := h.holds
  split <;> assumption

instance {c : Prop} [Decidable c] : Agree (if c then p else q) (if c then p' else q') := by
  split <;> assumption

end Branches

/-! ### Failures -/

/-- Failures agree, whatever they say. -/
theorem of_error {p q : Parser α} {f g : Stream → Fault} (hp : p = fun s => .error (f s))
    (hq : q = fun s => .error (g s)) : Agree p q := by
  subst hp hq
  exact ⟨fun s t _ => .error (f s) (g t)⟩

instance {m n : String} {ts us : List TokenTree} : Agree (failAt m ts : Parser α) (failAt n us) :=
  of_error rfl rfl

instance {m n : String} : Agree (fail m : Parser α) (fail n) := of_error rfl rfl

instance {m n : String} : Agree (failHere m : Parser α) (failHere n) := of_error rfl rfl

omit [Likeness α] in
/-- Whatever was expected, the parser fails. -/
theorem failExpected_error (l : List String) :
    ∃ f : Stream → Fault, (failExpected l : Parser α) = fun s => .error (f s) := by
  match l with
  | [] => exact ⟨_, rfl⟩
  | [_] => exact ⟨_, rfl⟩
  | [_, _] => exact ⟨_, rfl⟩
  | _ :: _ :: _ :: _ => exact ⟨_, rfl⟩

instance {l m : List String} : Agree (failExpected l : Parser α) (failExpected m) := by
  obtain ⟨f, hf⟩ := failExpected_error (α := α) l
  obtain ⟨g, hg⟩ := failExpected_error (α := α) m
  exact of_error hf hg

/-! ### The stream -/

instance : Agree (get : Parser Stream) get := ⟨fun _ _ h => .ok ⟨h, h⟩⟩

instance {s t : Stream} [h : Like s t] : Agree (set s : Parser PUnit) (set t) :=
  ⟨fun _ _ _ => .ok ⟨⟨rfl⟩, h⟩⟩

instance {f f' : Stream → Stream} [hf : ∀ x : Pair Stream, Like (f x.left) (f' x.right)] :
    Agree (modify f : Parser PUnit) (modify f') :=
  ⟨fun _ _ h => .ok ⟨⟨rfl⟩, hf ⟨_, _, h⟩⟩⟩

instance : Agree position position := by
  unfold position
  infer_instance

instance : Agree isDone isDone := by
  unfold isDone
  infer_instance

instance : Agree advance advance := by
  unfold advance
  infer_instance

instance : Agree everything everything := by
  unfold everything
  infer_instance

instance {ts us : List TokenTree} [h : Like ts us] : Agree (readSince ts) (readSince us) := by
  unfold readSince
  infer_instance

section Peek

variable {P Q : Peek} [h : ∀ x : Pair (List TokenTree), Like (P x.left) (Q x.right)]

/-- What is found by looking past the same number of trees is the same. -/
theorem look (skip : List TokenTree → List TokenTree)
    [hs : ∀ x : Pair (List TokenTree), Like (skip x.left) (skip x.right)] :
    Agree (return P (skip (← get).rest)) (return Q (skip (← get).rest)) :=
  bind_of inferInstance fun _ _ hst =>
    have := h ⟨_, _, hs ⟨_, _, hst.holds.1⟩⟩
    inferInstance

instance : Agree (peek P) (peek Q) := look fun ts => ts
instance : Agree (peek2 P) (peek2 Q) := look next
instance : Agree (peek3 P) (peek3 Q) := look fun ts => next (next ts)

end Peek

/-! ### Reading tokens -/

/-- To read from the head of two streams, it is enough to consider what stands there: nothing, the
same word, two hidden names, or groups with like content. -/
@[elab_as_elim]
theorem front_cases {s t : Stream} (hs : Like s t)
    {motive : List TokenTree → List TokenTree → Prop} (nil : motive [] [])
    (same : ∀ w p q ts us, motive (.leaf ⟨w, p⟩ :: ts) (.leaf ⟨w, q⟩ :: us))
    (hidden : ∀ m n p q ts us, isHidden m = true → isHidden n = true →
      motive (.leaf ⟨.name m, p⟩ :: ts) (.leaf ⟨.name n, q⟩ :: us))
    (group : ∀ d p vs ws ts us, Like vs ws → Like ts us →
      motive (.group d p vs :: ts) (.group d p ws :: us)) :
    motive (front s.rest) (front t.rest) := by
  have h := hs.holds.1.holds.front
  generalize front s.rest = ts at h ⊢
  generalize front t.rest = us at h ⊢
  cases h with
  | nil => exact nil
  | @leaf t u _ _ word _ =>
    cases t
    cases u
    cases word with
    | same => exact same _ _ _ _ _
    | hidden hm hn => exact hidden _ _ _ _ _ _ hm hn
  | group body rest => exact group _ _ _ _ _ _ ⟨body⟩ ⟨rest⟩

/-- Two hidden names are alike. -/
theorem like_of_isHidden {m n : String} (hm : isHidden m = true) (hn : isHidden n = true)
    (p q : Option Span) : Like (Token.mk (.name m) p) ⟨.name n, q⟩ := ⟨.hidden hm hn⟩

instance : Agree anyName anyName := by
  refine bind_of inferInstance fun s t hs => ?_
  refine front_cases hs ?_ ?_ ?_ ?_
  · infer_instance
  · intro w p q ts us
    cases w <;> infer_instance
  · intro m n p q ts us hm hn
    have := like_of_isHidden hm hn p q
    infer_instance
  · intros
    infer_instance

instance : Agree Parser.name Parser.name := by
  refine bind_of inferInstance fun s t hs => ?_
  refine front_cases hs ?_ ?_ ?_ ?_
  · infer_instance
  · intro w p q ts us
    cases w <;> infer_instance
  · intro m n p q ts us hm hn
    have := like_of_isHidden hm hn p q
    simp only [isIdentifier_of_isHidden hm, isIdentifier_of_isHidden hn, if_true]
    infer_instance
  · intros
    infer_instance

instance {k : String} [Shown k] : Agree (keyword k) (keyword k) := by
  refine bind_of inferInstance fun s t hs => ?_
  refine front_cases hs ?_ ?_ ?_ ?_
  · infer_instance
  · intro w p q ts us
    cases w <;> infer_instance
  · intro m n p q ts us hm hn
    simp only [ne_of_isHidden hm k, ne_of_isHidden hn k, if_false]
    infer_instance
  · intros
    infer_instance

instance {k : String} [Shown k] : Agree (keyword? k) (keyword? k) := by
  unfold keyword?
  infer_instance

instance : Agree lifetime lifetime := by
  refine bind_of inferInstance fun s t hs => ?_
  refine front_cases hs ?_ ?_ ?_ ?_
  · infer_instance
  · intro w p q ts us
    cases w <;> infer_instance
  · intros
    infer_instance
  · intros
    infer_instance

/-- The literals that are read have the same text. -/
instance (priority := high) bind_literalOf {kinds : List LiteralKind} {m : String}
    {f f' : Token → Parser α} [h : ∀ w p q, Agree (f ⟨.literal w, p⟩) (f' ⟨.literal w, q⟩)] :
    Agree (literalOf kinds m >>= f) (literalOf kinds m >>= f') := by
  have hfail : Agree (fail m >>= f) (fail m >>= f') := of_error rfl rfl
  unfold literalOf
  rw [bind_assoc, bind_assoc]
  refine bind_of inferInstance fun s t hs => ?_
  refine front_cases hs ?_ ?_ ?_ ?_
  · exact hfail
  · intro w p q ts us
    cases w with
    | literal w =>
      dsimp only
      split
      · simp only [bind_assoc, pure_bind]
        exact bind_of inferInstance fun _ _ _ => h w p q
      · exact hfail
    | name _ => exact hfail
    | lifetime _ => exact hfail
    | mark _ _ => exact hfail
  · intros
    exact hfail
  · intros
    exact hfail

instance : Agree literal literal := by
  refine bind_of inferInstance fun s t hs => ?_
  refine front_cases hs ?_ ?_ ?_ ?_
  · infer_instance
  · intro w p q ts us
    rcases w with _ | _ | ⟨c, _⟩ | _
    · infer_instance
    · infer_instance
    · by_cases hc : c = '-'
      · subst hc
        change Agree (_ >>= _) (_ >>= _)
        infer_instance
      · split <;> simp_all
        infer_instance
    · infer_instance
  · intro m n p q ts us hm hn
    have := like_of_isHidden hm hn p q
    simp only [ne_of_isHidden hm, ne_of_isHidden hn]
    infer_instance
  · intros
    infer_instance

/-- The tokens of a sign are alike, and so many. -/
theorem signTokens_like (cs : List Char) {ts us : List TokenTree} (h : Like ts us) :
    Like (signTokens cs ts) (signTokens cs us) := by
  induction cs generalizing ts us with
  | nil => exact ⟨.nil⟩
  | cons c more ih =>
    have hrest := ih (inferInstance : Like (next ts) (next us))
    have hs : Like (Stream.mk ts none) ⟨us, none⟩ := inferInstance
    unfold signTokens
    refine front_cases hs ?_ ?_ ?_ ?_
    · exact ⟨.nil⟩
    · intro w p q _ _
      cases w <;> infer_instance
    · intros
      exact ⟨.nil⟩
    · intros
      exact ⟨.nil⟩

instance {as bs : List α} {f f' : α → Parser PUnit} [h : Like as bs]
    [hf : ∀ x : Pair α, Agree (f x.left) (f' x.right)] : Agree (as.forM f) (bs.forM f') := by
  obtain ⟨h⟩ := h
  induction h with
  | nil => exact (inferInstance : Agree (pure () : Parser Unit) (pure ()))
  | cons h _ ih =>
    have := hf ⟨_, _, h⟩
    exact bind_of this fun _ _ _ => ih

instance {s : String} : Agree (sign s) (sign s) := by
  refine bind_of inferInstance fun s t hs => ?_
  have := fun cs => signTokens_like cs hs.holds.1
  infer_instance

instance {s : String} : Agree (sign? s) (sign? s) := by
  unfold sign?
  infer_instance

instance {s : String} : Agree (mark s) (mark s) := by
  refine bind_of inferInstance fun ts us h => ?_
  obtain ⟨_ | _⟩ := h <;> infer_instance

instance {s : String} : Agree (mark? s) (mark? s) := by
  unfold mark?
  infer_instance

/-! ### Groups -/

/-- A tree that is left over is left over in both streams. -/
theorem stray?_like (d : Delimiter) {s t : Stream} (h : Like s t) :
    Like (stray? d s.rest) (stray? d t.rest) := by
  unfold stray?
  refine front_cases h ?_ ?_ ?_ ?_
  · exact ⟨.none⟩
  · intro w _ _ _ _
    cases w <;> infer_instance
  · intros
    infer_instance
  · intros
    infer_instance

/-- To read two streams without opening invisible groups, it is enough to consider nothing, words,
and groups with like content. -/
@[elab_as_elim]
theorem rest_cases {s t : Stream} (hs : Like s t)
    {motive : List TokenTree → List TokenTree → Prop} (nil : motive [] [])
    (leaf : ∀ v w ts us, motive (.leaf v :: ts) (.leaf w :: us))
    (group : ∀ d p vs ws ts us, Like vs ws → Like ts us →
      motive (.group d p vs :: ts) (.group d p ws :: us)) :
    motive s.rest t.rest := by
  have h := hs.holds.1.holds
  generalize s.rest = ts at h ⊢
  generalize t.rest = us at h ⊢
  cases h with
  | nil => exact nil
  | leaf _ _ => exact leaf _ _ _ _
  | group body rest => exact group _ _ _ _ _ _ ⟨body⟩ ⟨rest⟩

section Groups

variable {p q : Parser α} [hp : Agree p q]

/-- The content of groups taken off two streams is read alike. -/
theorem content_agree (d : Delimiter) (span : Option Span) {vs ws ts us : List TokenTree}
    (hbody : Like vs ws) (hrest : Like ts us) :
    Agree (content d span vs ts p) (content d span ws us q) := by
  constructor
  intro s t h
  unfold content
  refine run_cases hp (inferInstance : Like (Stream.mk vs s.stray) ⟨ws, t.stray⟩) ?_ ?_
  · intro a b s' t' hab hst
    have := stray?_like d hst
    exact .ok inferInstance
  · intro f g
    exact .error _ _

instance {d : Delimiter} : Agree (within d p) (within d q) := by
  refine bind_of inferInstance fun s t hs => ?_
  refine front_cases hs ?_ ?_ ?_ ?_
  · infer_instance
  · intros
    infer_instance
  · intros
    infer_instance
  · intro e span vs ws ts us hbody hrest
    have := content_agree (p := p) (q := q) d span hbody hrest
    infer_instance

instance : Agree (fragment p) (fragment q) := by
  refine bind_of inferInstance fun s t hs => ?_
  refine rest_cases hs ?_ ?_ ?_
  · infer_instance
  · intros
    infer_instance
  · intro d span vs ws ts us hbody hrest
    have := content_agree (p := p) (q := q) .invisible span hbody hrest
    cases d <;> infer_instance

end Groups

instance : Agree anyGroup anyGroup := by
  refine bind_of inferInstance fun s t hs => ?_
  refine rest_cases hs ?_ ?_ ?_
  · infer_instance
  · intros
    infer_instance
  · intro d span vs ws ts us hbody hrest
    cases d <;> infer_instance

/-! ### Trying and repeating -/

section Trying

variable {p q : Parser α} [hp : Agree p q]

instance : Agree (attempt p) (attempt q) := by
  constructor
  intro s t h
  unfold attempt
  refine run_cases hp h ?_ ?_
  · intros
    exact .ok inferInstance
  · intros
    exact .ok inferInstance

instance : Agree (trial p) (trial q) := by
  constructor
  intro s t h
  unfold trial
  refine run_cases hp h ?_ ?_
  · intros
    exact .ok inferInstance
  · exact .error

end Trying

/-- Decisions of a step that are alike. -/
inductive TurnAlike : Turn α β → Turn α β → Prop
  | more {a b : α} (like : Like a b) : TurnAlike (.more a) (.more b)
  | done {a b : β} (like : Like a b) : TurnAlike (.done a) (.done b)

instance : Likeness (Turn α β) := ⟨TurnAlike⟩

instance {a b : α} [h : Like a b] : Like (Turn.more a : Turn α β) (.more b) := ⟨.more h⟩
instance {a b : β} [h : Like a b] : Like (Turn.done a : Turn α β) (.done b) := ⟨.done h⟩

/-- Steps that agree do so however often they are repeated. -/
theorem iterate_agree {step step' : σ → Parser (Turn σ β)}
    (h : ∀ a b, Like a b → Agree (step a) (step' b)) (n : Nat) {a b : σ} (hab : Like a b) :
    Agree (iterate step n a) (iterate step' n b) := by
  induction n generalizing a b with
  | zero => exact (inferInstance : Agree (fail "too deep" : Parser β) (fail "too deep"))
  | succ n ih =>
    refine bind_of (h a b hab) fun x y hxy => ?_
    obtain ⟨hmore | hdone⟩ := hxy
    · exact ih hmore
    · infer_instance

/-- Loops whose steps agree do so too. -/
theorem loop_of {a b : σ} {step step' : σ → Parser (Turn σ β)} (hab : Like a b)
    (h : ∀ a b, Like a b → Agree (step a) (step' b)) : Agree (loop a step) (loop b step') := by
  refine bind_of inferInstance fun s t hs => ?_
  rw [hs.holds.1.holds.totalWeight_eq]
  exact iterate_agree h _ hab

instance {a b : σ} {step step' : σ → Parser (Turn σ β)} [hab : Like a b]
    [h : ∀ x : Pair σ, Agree (step x.left) (step' x.right)] : Agree (loop a step) (loop b step') :=
  loop_of hab fun _ _ h' => h ⟨_, _, h'⟩

instance {γ : Type} {as : List γ} {f f' : γ → Parser α} [h : ∀ x, Agree (f x) (f' x)] :
    Agree (as.mapM f) (as.mapM f') := by
  induction as with
  | nil => exact (inferInstance : Agree (pure [] : Parser (List α)) (pure []))
  | cons a as ih =>
    simp only [List.mapM_cons]
    infer_instance

section Lists

variable {p q : Parser α} [hp : Agree p q] {stop stop' : Parser Bool} [hs : Agree stop stop']
  {s : String}

instance : Agree (untilDone p) (untilDone q) := by
  unfold untilDone
  infer_instance

set_option synthInstance.maxSize 400 in
instance : Agree (separatedUntil s stop p) (separatedUntil s stop' q) := by
  unfold separatedUntil
  infer_instance

instance : Agree (commaSeparated p) (commaSeparated q) := by
  unfold commaSeparated
  infer_instance

end Lists

/-- Two parsers that agree accept the same of two streams that are alike. -/
theorem run_isOk {p q : Parser α} (hp : Agree p q) {ts us : List TokenTree} (h : Like ts us) :
    (Parser.run p ts).isOk = (Parser.run q us).isOk := by
  unfold Parser.run
  refine run_cases hp (inferInstance : Like (Stream.mk ts none) ⟨us, none⟩) ?_ ?_
  · intro a b s t _ hst
    have := stray?_like .invisible hst
    have hstray : Like (s.stray.orElse fun _ => stray? .invisible s.rest)
        (t.stray.orElse fun _ => stray? .invisible t.rest) := inferInstance
    dsimp only
    generalize s.stray.orElse _ = o at hstray ⊢
    generalize t.stray.orElse _ = o' at hstray ⊢
    obtain ⟨_ | _⟩ := hstray <;> rfl
  · intros
    rfl

end Agree

end Memoize
