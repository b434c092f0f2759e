import Memoize.Proofs.Function.Keys
import Memoize.Proofs.Types.Resolution

/-!
# Parentheses and fragments around the types of parameters

A macro may hand over the type of a parameter as a fragment, and a type may be written in
parentheses. Main statement: neither matters, for what is cached and for what is refused; only the
signature shows them (`Parameters.extract_rewrapped`).

## Implementation notes

Parentheses are looked through before a type is resolved, and again where a part of the key is made
of it. Between the two they stay if the type is no reference, since `Self` may stand for one.
-/

namespace Memoize

open TokenTree

/-- Two results have one image if both are the same error, or if both are values with one image. -/
theorem map_eq_map_iff {E A B : Type} {f : A → B} {x y : Except E A} :
    x.map f = y.map f ↔
      (∃ e, x = .error e ∧ y = .error e) ∨ ∃ a b, x = .ok a ∧ y = .ok b ∧ f a = f b := by
  cases x <;> cases y <;> simp [Except.map, eq_comm]

/-! ### Wrapped types -/

/-- A type with any number of parentheses and fragments around it. -/
inductive Phrase.Wraps (type : Phrase) : Phrase → Prop
  | refl : Wraps type type
  | wrap (delimiter : Delimiter) (span : Option Span) {w : Phrase} (h : Wraps type w) :
      Wraps type (.wrapped delimiter span w)

/-- Nothing is left around a type that is looked through. -/
theorem Phrase.ungroup_ungroup (p : Phrase) : p.ungroup.ungroup = p.ungroup := by
  fun_induction Phrase.ungroup p with
  | case1 d s inner ih => exact ih
  | case2 p hwrapped =>
      unfold Phrase.ungroup
      split
      · rename_i d s inner
        exact absurd rfl (hwrapped d s inner)
      · rfl

/-- The type of a parameter is resolved, or refused, like the same type in parentheses, but for
these. -/
theorem TypeRules.resolveParam_of_wraps (rules : TypeRules) {type w : Phrase}
    (h : type.Wraps w) :
    (rules.resolveParam w).map Phrase.ungroup = (rules.resolveParam type).map Phrase.ungroup := by
  induction h with
  | refl => rfl
  | @wrap d s w h ih =>
      rw [← ih, resolveParam_wrapped]
      split
      · rfl
      · cases rules.resolveParam w <;> rfl

/-! ### Parameters without wrappings -/

/-- A parameter with nothing around its type. -/
def Param.unwrapped (p : Param) : Param := { p with type := p.type.ungroup }

/-- The key does not depend on what is around the types. -/
theorem keyParts_unwrapped (ps : List Param) : keyParts (ps.map Param.unwrapped) = keyParts ps := by
  simp [keyParts, Param.unwrapped, KeyPart.ofParam, Phrase.ungroup_ungroup]

namespace Parameters

/-- What is read off a signature but for the receiver, with nothing around the types of the
parameters. -/
def essence (p : Parameters) : List Param × Phrase := (p.params.map Param.unwrapped, p.output)

section Essence

variable {p q : Parameters}

/-- The parts of the key are read off the types without what is around them. -/
theorem keyParts_of_essence (h : p.essence = q.essence) :
    keyParts p.params = keyParts q.params := by
  have hparams := congrArg Prod.fst h
  rw [← keyParts_unwrapped p.params, ← keyParts_unwrapped q.params]
  exact congrArg keyParts hparams

/-- Types with something around them have the same holder as without it. -/
theorem holder?_of_essence (h : p.essence = q.essence) (site : Site) (cratePath : Path) :
    site.holder? cratePath p = site.holder? cratePath q := by
  have houtput : p.output = q.output := congrArg Prod.snd h
  rcases site with ⟨name, kind, cacheName⟩ | ⟨name⟩
  · simp only [Site.holder?, keyType, keyParts_of_essence h, houtput]
  · rfl

/-- The body takes the same patterns apart. -/
theorem body_of_essence (h : p.essence = q.essence) (statements : List Statement) (site : Site)
    (cratePath : Path) :
    Body.of p statements site cratePath = Body.of q statements site cratePath := by
  have houtput : p.output = q.output := congrArg Prod.snd h
  have hpatterns (ps : List Param) :
      (ps.filterMap fun r => r.pattern?.map fun pattern => (pattern, r.binding)) =
        (ps.map Param.unwrapped).filterMap fun r =>
          r.pattern?.map fun pattern => (pattern, r.binding) := by
    rw [List.filterMap_map]
    rfl
  have hparams : p.params.map Param.unwrapped = q.params.map Param.unwrapped := congrArg Prod.fst h
  rw [Body.of, Body.of, keyParts_of_essence h, houtput, hpatterns p.params, hparams, ← hpatterns]

/-- The code for one is code if that for the other is. -/
theorem isWellFormed_of_essence (h : p.essence = q.essence) (site : Site) (cratePath : Path)
    (body : Body) :
    Memoized.isWellFormed p site cratePath body = Memoized.isWellFormed q site cratePath body := by
  simp only [Memoized.isWellFormed, keyType, keyExpr, keyParts_of_essence h,
    holder?_of_essence h site cratePath]

/-- The inputs get the same names. -/
theorem rebindFrom_unwrapped (is : List (Input × Option Token)) (ps : List Param) :
    rebindFrom is (ps.map Param.unwrapped) = rebindFrom is ps := by
  fun_induction rebindFrom is ps with
  | case1 ps => rw [rebindFrom]
  | case2 r comma rest ps ih => rw [rebindFrom, ih]
  | case3 attributes pattern colon type comma rest p ps new ih =>
      rw [List.map_cons, rebindFrom, ih]
      rfl
  | case4 i rest hreceiver ih =>
      obtain ⟨input, comma⟩ := i
      cases input with
      | receiver r => exact absurd rfl (hreceiver r comma)
      | typed attributes pattern colon type => rfl

end Essence

end Parameters

/-! ### Signatures with wrapped types -/

/-- An input that differs in what is around its type. -/
inductive Input.Rewrapped : Input → Input → Prop
  | typed (attributes : List Attribute) (pattern : Pattern) (colon : Token) {type w : Phrase}
      (h : type.Wraps w) :
      Rewrapped (.typed attributes pattern colon type) (.typed attributes pattern colon w)
  | receiver (r : Receiver) : Rewrapped (.receiver r) (.receiver r)
  | explicit (r : Receiver) (colon : Token) {type w : Phrase} (h : type.Wraps w) :
      Rewrapped (.receiver { r with explicit? := some (colon, type) })
        (.receiver { r with explicit? := some (colon, w) })

/-- Inputs, with their commas, that differ in what is around the types of some of them. -/
def Input.AllRewrapped : List (Input × Option Token) → List (Input × Option Token) → Prop :=
  List.Forall₂ fun i j => i.1.Rewrapped j.1 ∧ i.2 = j.2

/-- A signature with parentheses and fragments around the types of some of its parameters. -/
def Signature.Rewrapped (s w : Signature) : Prop :=
  w = { s with inputs := w.inputs } ∧ Input.AllRewrapped s.inputs w.inputs

/-- The input with its type in a fragment and in parentheses. -/
def Input.enclosed : Input → Input
  | receiver r => .receiver r
  | typed attributes pattern colon type =>
    .typed attributes pattern colon (.wrapped .parenthesis none (.wrapped .invisible none type))

/-- The signature with all types of parameters in fragments and in parentheses. -/
def Signature.enclosed (s : Signature) : Signature :=
  { s with inputs := s.inputs.map fun i => (i.1.enclosed, i.2) }

/-- These are around the types of a signature. -/
theorem Signature.rewrapped_enclosed (s : Signature) : s.Rewrapped s.enclosed := by
  refine ⟨rfl, List.forall₂_map_right_iff.mpr (List.forall₂_same.mpr fun i _ => ⟨?_, rfl⟩)⟩
  cases i.1 with
  | receiver r => exact .receiver r
  | typed attributes pattern colon type =>
      exact .typed attributes pattern colon (.wrap _ none (.wrap _ none .refl))

namespace Parameters

variable {s w : Signature} {is js : List (Input × Option Token)}

/-- A parameter is read off a wrapped type as off the type itself. -/
theorem paramOf_of_wraps (rules : TypeRules) (n : Nat) (pattern : Pattern) {type w : Phrase}
    (h : type.Wraps w) :
    (paramOf rules n pattern w).map Param.unwrapped =
      (paramOf rules n pattern type).map Param.unwrapped := by
  unfold paramOf
  rcases map_eq_map_iff.mp (rules.resolveParam_of_wraps h) with
    ⟨ds, hw, htype⟩ | ⟨u, v, hw, htype, hungroup⟩
  · rw [hw, htype]
  · rw [hw, htype]
    cases pattern.plain? <;> simp only [Except.map, Param.unwrapped, hungroup]

/-- The parameters are read off inputs with wrapped types as off the inputs themselves. -/
theorem paramsFrom_of_rewrapped (rules : TypeRules) (n : Nat) (h : Input.AllRewrapped is js) :
    (paramsFrom rules n (js.map (·.1))).map (List.map Param.unwrapped) =
      (paramsFrom rules n (is.map (·.1))).map (List.map Param.unwrapped) := by
  induction h generalizing n with
  | nil => rfl
  | @cons i j is js hij hrest ih =>
      obtain ⟨i, comma⟩ := i
      obtain ⟨j, comma'⟩ := j
      obtain ⟨hinput, -⟩ := hij
      cases hinput with
      | receiver r => exact ih n
      | explicit r colon hwraps => exact ih n
      | typed attributes pattern colon hwraps =>
          -- The first refusal counts, so the rest matters only if this parameter is accepted.
          simp only [List.map_cons, paramsFrom]
          rcases map_eq_map_iff.mp (paramOf_of_wraps rules n pattern hwraps) with
            ⟨e, hw, htype⟩ | ⟨q, p, hw, htype, hfirst⟩
          · rw [hw, htype]
          · rcases map_eq_map_iff.mp (ih (n + 1)) with
              ⟨e, hjs, his⟩ | ⟨qs, ps, hjs, his, hparams⟩
            · rw [hw, htype, hjs, his]
              rfl
            · rw [hw, htype, hjs, his]
              simp only [Except.map, List.map_cons, hfirst, hparams]

/-- What is read off a signature with wrapped types is what is read off the signature itself. -/
theorem extract_of_rewrapped (rules : TypeRules) (h : s.Rewrapped w) :
    (extract rules w).map essence = (extract rules s).map essence := by
  obtain ⟨hw, hinputs⟩ := h
  have hqualifiers : checkQualifiers w = checkQualifiers s := by rw [hw]; rfl
  have hresult : resultOf rules w = resultOf rules s := by rw [hw]; rfl
  unfold extract
  rw [hqualifiers, hresult]
  cases checkQualifiers s with
  | error e => rfl
  | ok u =>
      rcases map_eq_map_iff.mp (paramsFrom_of_rewrapped rules 0 hinputs) with
        ⟨e, hjs, his⟩ | ⟨qs, ps, hjs, his, hparams⟩
      · rw [hjs, his]
      · rw [hjs, his]
        cases resultOf rules s with
        | error e => rfl
        | ok output => simp only [Except.map, essence, hparams]

/-- Names are put into inputs with wrapped types as into the inputs themselves. -/
theorem rebindFrom_rewrapped (h : Input.AllRewrapped is js) (ps : List Param) :
    Input.AllRewrapped (rebindFrom is ps) (rebindFrom js ps) := by
  induction h generalizing ps with
  | nil =>
      simp only [rebindFrom]
      exact .nil
  | @cons i j is js hij hrest ih =>
      obtain ⟨i, comma⟩ := i
      obtain ⟨j, comma'⟩ := j
      obtain ⟨hinput, hcomma⟩ := hij
      cases hinput with
      | receiver r =>
          simp only [rebindFrom]
          exact .cons ⟨.receiver r, hcomma⟩ (ih ps)
      | explicit r colon hwraps =>
          simp only [rebindFrom]
          exact .cons ⟨.explicit r colon hwraps, hcomma⟩ (ih ps)
      | typed attributes pattern colon hwraps =>
          cases ps with
          | nil =>
              simp only [rebindFrom]
              exact .cons ⟨.typed attributes pattern colon hwraps, hcomma⟩ (ih [])
          | cons p ps =>
              simp only [rebindFrom]
              exact .cons ⟨.typed attributes _ colon hwraps, hcomma⟩ (ih ps)

/-- Only what is around the types of parameters differs when their names are put in. -/
theorem rebind_rewrapped (h : s.Rewrapped w) {p q : Parameters} (hessence : q.essence = p.essence) :
    (p.rebind s).Rewrapped (q.rebind w) := by
  obtain ⟨hw, hinputs⟩ := h
  have hparams : q.params.map Param.unwrapped = p.params.map Param.unwrapped :=
    congrArg Prod.fst hessence
  have hrebind : rebindFrom w.inputs q.params = rebindFrom w.inputs p.params := by
    rw [← rebindFrom_unwrapped, hparams, rebindFrom_unwrapped]
  refine ⟨?_, ?_⟩
  · unfold rebind
    rw [hw]
  · unfold rebind
    rw [hrebind]
    exact rebindFrom_rewrapped hinputs p.params

/-- Signatures of which one has parentheses and fragments around the types of some parameters of the
other, in any nesting. Both are refused for the same reasons or neither is. If they are accepted,
the key has one type and one expression for both, they have one holder, at every site, and one body;
and in the memoized function only what is around the types of its parameters differs. -/
theorem extract_rewrapped (rules : TypeRules) (h : s.Rewrapped w) (body : List Statement)
    (site : Site) (cratePath : Path) :
    (∀ ds, extract rules s = .error ds ↔ extract rules w = .error ds) ∧
    ∀ p, extract rules s = .ok p → ∃ q, extract rules w = .ok q ∧
      keyType q.params = keyType p.params ∧ keyExpr q.params = keyExpr p.params ∧
      site.holder? cratePath q = site.holder? cratePath p ∧
      Body.of q body site cratePath = Body.of p body site cratePath ∧
      (p.rebind s).Rewrapped (q.rebind w) ∧
      Memoized.build w q body site cratePath =
        (Memoized.build s p body site cratePath).map fun m =>
          { m with signature := q.rebind w } := by
  rcases map_eq_map_iff.mp (extract_of_rewrapped rules h) with
    ⟨e, hw, hs⟩ | ⟨q, p, hw, hs, hessence⟩
  · rw [hw, hs]
    constructor
    · intro ds
      exact Iff.rfl
    · intro p hp
      cases hp
  · rw [hw, hs]
    refine ⟨fun ds => by simp, ?_⟩
    intro r hr
    obtain rfl := Except.ok.inj hr
    have hkey : keyType q.params = keyType p.params := by
      rw [keyType, keyType, keyParts_of_essence hessence]
    have hexpr : keyExpr q.params = keyExpr p.params := by
      rw [keyExpr, keyExpr, keyParts_of_essence hessence]
    have hholder := holder?_of_essence hessence site cratePath
    have hbody := body_of_essence hessence body site cratePath
    refine ⟨q, rfl, hkey, hexpr, hholder, hbody, rebind_rewrapped h hessence, ?_⟩
    rw [Memoized.build_eq, Memoized.build_eq, hbody, isWellFormed_of_essence hessence]
    split
    · simp only [Memoized.made, hholder, hbody, Option.map_some]
    · rfl

/-- A function with a reference and with the type of its block, alone and in a tuple. -/
def measureFunction : String :=
  "fn measure(text: &str, (first, rest): (u8, Self), last: Self) -> usize \x7b 0 \x7d"

/-- Where the results of such a function may be kept. -/
def measureSite : Site := .variable ⟨.name "__MEASURE_CACHE_0", none⟩ .memo "measure"

/-- In a block of a reference type, the first and the last part of the key own what is referred to,
also if every type is in a fragment and in parentheses. -/
theorem extract_rewrapped_measure :
    ∃ self f p q, TypeRules.readType? "&'static str" = some self ∧
      Memoized.readFunction? measureFunction = some f ∧
      f.signature.Rewrapped f.signature.enclosed ∧
      extract ⟨some self, true⟩ f.signature = .ok p ∧
      allWords (keyType p.params) =
        ["(", "<", "str", "as", ":", ":", "std", ":", ":", "borrow", ":", ":", "ToOwned", ">", ":",
          ":", "Owned", ",", "(", "u8", ",", "&", "'static", "str", ")", ",", "<", "str", "as", ":",
          ":", "std", ":", ":", "borrow", ":", ":", "ToOwned", ">", ":", ":", "Owned", ",", ")"] ∧
      extract ⟨some self, true⟩ f.signature.enclosed = .ok q ∧
      keyType q.params = keyType p.params ∧
      measureSite.holder? CacheArgs.defaultCratePath q =
        measureSite.holder? CacheArgs.defaultCratePath p := by
  have hrun : (TypeRules.readType? "&'static str").bind (fun self =>
      (Memoized.readFunction? measureFunction).map fun f =>
        (extract ⟨some self, true⟩ f.signature).toOption.map fun p => allWords (keyType p.params)) =
      some (some ["(", "<", "str", "as", ":", ":", "std", ":", ":", "borrow", ":", ":", "ToOwned",
        ">", ":", ":", "Owned", ",", "(", "u8", ",", "&", "'static", "str", ")", ",", "<", "str",
        "as", ":", ":", "std", ":", ":", "borrow", ":", ":", "ToOwned", ">", ":", ":", "Owned", ",",
        ")"]) := by
    decide +kernel
  obtain ⟨self, hself, hrun⟩ := Option.bind_eq_some_iff.mp hrun
  obtain ⟨f, hf, hkey⟩ := Option.map_eq_some_iff.mp hrun
  have hwrapped := f.signature.rewrapped_enclosed
  cases hp : extract ⟨some self, true⟩ f.signature with
  | error ds =>
      rw [hp] at hkey
      cases hkey
  | ok p =>
      rw [hp] at hkey
      obtain ⟨-, hkeys⟩ :=
        extract_rewrapped ⟨some self, true⟩ hwrapped f.body measureSite CacheArgs.defaultCratePath
      obtain ⟨q, hq, hsame, -, hholder, -⟩ := hkeys p hp
      exact ⟨self, f, p, q, hself, hf, hwrapped, hp, Option.some.inj hkey, hq, hsame, hholder⟩

end Parameters

end Memoize
