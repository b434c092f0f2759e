import Memoize.Proofs.Function.HolderTypes
import Memoize.Proofs.Types.Lifetimes

/-!
# Lifetimes in the types of a holder

A holder that is a variable outlives every call, so that its types should have no lifetime of the
function. Main statement: the types of the holder have a lifetime other than `'static`, or one that
no binder in them declares, exactly if a hidden part of a stored type has it, and the rest of the
declaration has those of the path to its type; a lifetime that is not hidden is reported, and the
function is refused (`holder_lifetimes_iff`).

## Implementation notes

Hidden parts can have lifetimes of the function: a function type that names one is stored as it is
(`holder_keeps_lifetime`).
-/

namespace Memoize

open TokenTree Code

/-! ### Stored types -/

namespace TypeRules

/-- The type whose values are stored for a parameter of a type, with the concrete type in the place
of `Self`: what a reference refers to, in the place of the reference. -/
def storedFor (rules : TypeRules) (type : Phrase) : Phrase :=
  match type.ungroup with
  | .reference _ _ _ target => rules.substituted target
  | _ =>
    match (rules.substituted type).ungroup with
    | .reference _ _ _ target => target
    | stored => stored

/-- The types of the values that a holder stores, with the concrete type in the place of `Self`. -/
def storedTypes (rules : TypeRules) (s : Signature) : List Phrase :=
  (s.inputs.filterMap fun i => i.1.type?.map rules.storedFor) ++
    s.output?.toList.map fun o => rules.substituted o.2

end TypeRules

/-- Wrappings have no offences of their own. -/
theorem Phrase.offences_ungroup (forbidSelf : Bool) (p : Phrase) :
    offences forbidSelf p.ungroup = offences forbidSelf p := by
  fun_induction Phrase.ungroup p with
  | case1 d s inner ih => rw [ih, offences]
  | case2 p _ => rfl

/-- The type that a part of a key holds values, or owned values, of. -/
def KeyPart.subject (k : KeyPart) : Phrase :=
  match k.ownership with
  | .cloned type => type
  | .owned target => target

section Stored

variable {rules : TypeRules}

/-- What a reference refers to is stored for it. -/
theorem storedFor_of_reference {type target : Phrase} {amp : Token} {region mutable : Option Token}
    (h : type.ungroup = .reference amp region mutable target) :
    rules.storedFor type = rules.substituted target := by
  simp only [TypeRules.storedFor, h]

/-- For a type that is no reference, that is stored which the key holds for the type without `Self`.
-/
theorem storedFor_of_not_reference {type : Phrase}
    (h : ∀ amp region mutable target, type.ungroup ≠ .reference amp region mutable target)
    (binding : Token) (pattern? : Option Pattern) :
    rules.storedFor type =
      (KeyPart.ofParam ⟨binding, pattern?, rules.substituted type⟩).subject := by
  unfold TypeRules.storedFor KeyPart.ofParam
  cases hungroup : type.ungroup with
  | reference amp region mutable target => exact absurd hungroup (h amp region mutable target)
  | _ =>
    dsimp only
    cases (rules.substituted type).ungroup <;> rfl

/-- A part of the key holds values of the stored type of its parameter, which has no offence. -/
theorem subject_ofParam {type : Phrase} {p : Param} (h : rules.resolveParam type = .ok p.type) :
    (KeyPart.ofParam p).subject = rules.storedFor type ∧
      (rules.storedFor type).offences rules.forbidSelf = [] := by
  obtain ⟨binding, pattern?, resolved⟩ := p
  change rules.resolveParam type = .ok resolved at h
  unfold TypeRules.resolveParam at h
  split at h
  · rename_i amp region mutable target htype
    rw [storedFor_of_reference htype]
    cases htarget : rules.resolve target with
    | error ds => simp [htarget, Except.map] at h
    | ok target' =>
      simp only [htarget, Except.map] at h
      obtain rfl := Except.ok.inj h
      obtain ⟨hclean, rfl⟩ := TypeRules.resolve_eq_ok_iff.mp htarget
      exact ⟨rfl, hclean⟩
  · rename_i hreference
    obtain ⟨hclean, rfl⟩ := TypeRules.resolve_eq_ok_iff.mp h
    rw [storedFor_of_not_reference hreference binding pattern?]
    refine ⟨rfl, ?_⟩
    rw [← Phrase.offences_ungroup] at hclean
    simp only [KeyPart.ofParam]
    cases hungroup : (rules.substituted type).ungroup with
    | reference amp region mutable target =>
      rw [hungroup, Phrase.offences.eq_def, List.append_eq_nil_iff] at hclean
      exact hclean.2
    | _ =>
      rw [hungroup] at hclean
      exact hclean

/-- The parts of a key hold values of the stored types of the inputs, which have no offences. -/
theorem subjects_of_paramsFrom {is : List Input} {n : Nat} {ps : List Param}
    (h : Parameters.paramsFrom rules n is = .ok ps) :
    (keyParts ps).map KeyPart.subject = (is.filterMap Input.type?).map rules.storedFor ∧
      ∀ type ∈ (is.filterMap Input.type?).map rules.storedFor,
        type.offences rules.forbidSelf = [] := by
  have hresolved := paramsFrom_resolved h
  clear h
  generalize is.filterMap Input.type? = types at hresolved
  induction hresolved with
  | nil => simp [keyParts]
  | @cons type p types ps hp _ ih =>
    obtain ⟨hsubject, hclean⟩ := subject_ofParam hp
    simp only [keyParts, List.map_cons, List.map_map, List.mem_cons, forall_eq_or_imp,
      List.cons.injEq] at ih ⊢
    exact ⟨⟨hsubject, ih.1⟩, hclean, ih.2⟩

/-- What is stored has a property exactly if one of the stored types has it, unless the type of a
missing result has it. No stored type has an offence. -/
theorem stored_iff {Q : Phrase → Prop} (hunit : ¬ Q Parameters.unit) {s : Signature}
    {p : Parameters} (h : Parameters.extract rules s = .ok p) :
    ((∃ k ∈ keyParts p.params, Q k.subject) ∨ Q p.output ↔ ∃ type ∈ rules.storedTypes s, Q type) ∧
      ∀ type ∈ rules.storedTypes s, type.offences rules.forbidSelf = [] := by
  obtain ⟨-, ps, output, hps, hresult, rfl⟩ := Memoized.extract_eq_ok_iff.mp h
  obtain ⟨hsubjects, hclean⟩ := subjects_of_paramsFrom hps
  have hinputs : s.inputs.filterMap (fun i => i.1.type?.map rules.storedFor) =
      ((s.inputs.map (·.1)).filterMap Input.type?).map rules.storedFor := by
    rw [List.filterMap_map, List.map_filterMap]
    rfl
  have hkey : (∃ k ∈ keyParts ps, Q k.subject) ↔
      ∃ type ∈ s.inputs.filterMap (fun i => i.1.type?.map rules.storedFor), Q type := by
    rw [hinputs, ← hsubjects]
    simp
  have hvalue :
      (Q output ↔ ∃ type ∈ s.output?.toList.map (fun o => rules.substituted o.2), Q type) ∧
      ∀ type ∈ s.output?.toList.map (fun o => rules.substituted o.2),
        type.offences rules.forbidSelf = [] := by
    unfold Parameters.resultOf at hresult
    cases hs : s.output? with
    | none =>
      rw [hs] at hresult
      obtain rfl := Except.ok.inj hresult
      simp [hunit]
    | some r =>
      rw [hs] at hresult
      obtain ⟨hclean, rfl⟩ := TypeRules.resolve_eq_ok_iff.mp hresult
      simp [hclean]
  rw [← hinputs] at hclean
  constructor
  · rw [hkey, hvalue.1, TypeRules.storedTypes]
    simp only [List.mem_append, or_and_right, exists_or]
  · intro type htype
    rcases List.mem_append.mp htype with htype | htype
    · exact hclean type htype
    · exact hvalue.2 type htype

end Stored

/-! ### Declarations -/

section Declarations

variable {x : String}

/-- A path from the root has no lifetime. -/
@[simp] theorem anyBears_globalPath (ns : List String) : anyBears x (globalPath ns) = false := by
  rw [← Bool.not_eq_true, (additive_bears x).globalPath_iff]
  simp [ofName]

/-- A sign has no lifetime. -/
@[simp] theorem anyBears_ofSign (sign : String) : anyBears x (ofSign sign) = false :=
  Bool.not_eq_true _ ▸ (additive_bears x).not_sign sign

/-- A part of a key is written with the lifetimes of the type it holds values of. -/
theorem anyBears_typeTokens (k : KeyPart) :
    anyBears x k.typeTokens = anyBears x k.subject.tokens := by
  obtain ⟨binding, ownership⟩ := k
  cases ownership with
  | cloned type => rfl
  | owned target => simp [KeyPart.typeTokens, KeyPart.subject, KeyPart.asToOwned, ofName]

/-- A key is written with the lifetimes of the types its parts hold values of. -/
theorem anyBears_keyType_iff (params : List Param) :
    anyBears x (keyType params) = true ↔
      ∃ k ∈ keyParts params, anyBears x k.subject.tokens = true := by
  rw [keyType, (additive_bears x).tuple_iff]
  simp [anyBears_typeTokens]

/-- The path to the type of a holder: the path to the runtime, or the custom type. -/
def Holder.typePath (h : Holder) : Path :=
  match h.kind with
  | .memo => h.cratePath
  | .custom type => type

/-- A declaration is written with the lifetimes of its key, of its value and of the path to its
type. -/
theorem anyBears_holder_iff {h : Holder} (hname : ∀ l, h.name.word ≠ .lifetime l) :
    anyBears x h.tokens = true ↔ anyBears x h.key = true ∨ anyBears x h.value.tokens = true ∨
      anyBears x h.typePath.tokens = true := by
  obtain ⟨name, kind, cacheName, cratePath, key, value⟩ := h
  have hword : (name.word == Word.lifetime x) = false := by simpa using hname x
  cases kind with
  | memo =>
    simp [Holder.tokens, Holder.typeTokens, Holder.initTokens, Holder.arguments, Holder.typePath,
      ofName, parens, enclose, text, ofLiteral, hword]
    tauto
  | custom type =>
    simp [Holder.tokens, Holder.typeTokens, Holder.initTokens, Holder.arguments, Holder.typePath,
      ofName, parens, enclose, hword]
    tauto

end Declarations

/-! ### Holders -/

namespace Memoized

/-- The declaration of a holder that is a variable, and a lifetime other than `'static`. If the
function is memoized, the key or the value type of the holder has the lifetime exactly if a hidden
part of a stored type has it, and has it free of a binder exactly if such a part has; the rest of
the declaration has it exactly if the path to the type of the holder does. If a stored type has the
lifetime, but no hidden part of the type has it, then it is reported as borrowed data and the
function is refused. -/
theorem holder_lifetimes_iff (args : CacheArgs) (s : Signature) (body : List Statement)
    (names : Names) (owner? : Option Owner) (x : String) (hinstance : args.instance_ = none)
    (hx : x ≠ "static") :
    (∀ m names', parts args s body names owner? = .ok (m, names') →
      ∃ holder, m.holder? = some holder ∧
        holder.key = tuple (m.body.parts.map KeyPart.typeTokens) ∧
        (anyBears x holder.key = true ∨ anyBears x holder.value.tokens = true ↔
          ∃ type ∈ (rules args owner?).storedTypes s, ∃ q ∈ type.hidden,
            anyBears x q.tokens = true) ∧
        ((∃ k ∈ m.body.parts, k.subject.strays x false = true) ∨
            holder.value.strays x false = true ↔
          ∃ type ∈ (rules args owner?).storedTypes s, ∃ q ∈ type.hidden,
            q.strays x false = true) ∧
        (anyBears x holder.tokens = true ↔
          anyBears x holder.key = true ∨ anyBears x holder.value.tokens = true ∨
            anyBears x (args.holder.getD args.effectiveCratePath).tokens = true)) ∧
    ∀ type ∈ (rules args owner?).storedTypes s, anyBears x type.tokens = true →
      (∀ q ∈ type.hidden, anyBears x q.tokens = false) →
        (∃ d ∈ type.offences true, Phrase.ReportsLifetime x d) ∧
          ∃ ds, parts args s body names owner? = .error (.refused ds) := by
  have hfield : args.field? = none := by rw [CacheArgs.field?, hinstance]; rfl
  have hforbid : (rules args owner?).forbidSelf = true := by simp [rules, hfield]
  have haccept : ∀ p, accept args s owner? = .ok p →
      Parameters.extract (rules args owner?) s = .ok p :=
    fun p hp => (accept_eq_ok_iff.mp hp).2.1
  constructor
  · intro m names' h
    obtain ⟨p, site, hp, hplace, -, rfl⟩ := parts_eq_ok_iff.mp h
    simp only [place, hfield] at hplace
    obtain ⟨r, -, heq⟩ := Option.map_eq_some_iff.mp hplace
    obtain ⟨rfl, -⟩ := Prod.mk.inj heq
    obtain ⟨hbears, hclean⟩ := stored_iff (Q := fun type => anyBears x type.tokens = true)
      (by simp [Parameters.unit, Phrase.tokens]) (haccept p hp)
    obtain ⟨hstrays, -⟩ := stored_iff (Q := fun type => type.strays x false = true)
      (by simp [Parameters.unit, Phrase.strays, Phrase.anyStrays]) (haccept p hp)
    refine ⟨_, rfl, rfl, ?_, ?_, ?_⟩
    · rw [anyBears_keyType_iff]
      refine hbears.trans (exists_congr fun type => and_congr_right fun htype => ?_)
      exact Phrase.bears_iff hx (hclean type htype)
    · refine hstrays.trans (exists_congr fun type => and_congr_right fun htype => ?_)
      exact Phrase.strays_iff hx type (hclean type htype)
    · rw [anyBears_holder_iff (by simp)]
      cases args.holder <;> rfl
  · intro type htype hbears hshown
    have hreported : ∃ d ∈ type.offences true, Phrase.ReportsLifetime x d := by
      rcases Phrase.hidden_or_reported hx true type hbears with ⟨q, hq, h⟩ | h
      · rw [hshown q hq] at h
        cases h
      · exact h
    refine ⟨hreported, ?_⟩
    cases hp : accept args s owner? with
    | error ds => exact ⟨ds, parts_eq_refused_iff.mpr hp⟩
    | ok p =>
      obtain ⟨d, hd, -⟩ := hreported
      have hclean := (stored_iff (Q := fun _ => False) not_false (haccept p hp)).2 type htype
      rw [hforbid] at hclean
      rw [hclean] at hd
      cases hd

/-- A function on its own, with what memoizing it without arguments gives. -/
def memoizedAlone? (function : String) : Option (Function × Memoized) :=
  (readFunction? function).bind fun f =>
    match parts .none f.signature f.body .empty none with
    | .ok (m, _) => some (f, m)
    | .error _ => none

/-- What such a function and its memoized parts are. -/
theorem memoizedAlone?_eq_some {function : String} {f : Function} {m : Memoized}
    (h : memoizedAlone? function = some (f, m)) :
    readFunction? function = some f ∧
      ∃ names', parts .none f.signature f.body .empty none = .ok (m, names') := by
  obtain ⟨f', hf, h⟩ := Option.bind_eq_some_iff.mp h
  split at h
  · rename_i m' names' hparts
    cases h
    exact ⟨hf, names', hparts⟩
  · cases h

/-- A function that borrows its argument for a lifetime of its own, and takes a callback for all
lifetimes. -/
def countFunction : String :=
  "fn count<'a>(text: &'a str, test: for<'b> fn(&'b str) -> bool) -> usize \x7b 0 \x7d"

/-- The declaration for such a function has the lifetime that a binder declares, and not that of the
function. -/
theorem holder_lifetimes_iff_count :
    ∃ f m names' holder, readFunction? countFunction = some f ∧
      parts .none f.signature f.body .empty none = .ok (m, names') ∧ m.holder? = some holder ∧
      anyBears "a" f.signature.tokens = true ∧ anyBears "a" holder.tokens = false ∧
      anyBears "b" holder.tokens = true ∧
      ∀ k ∈ m.body.parts, k.subject.strays "b" false = false := by
  have hrun : (memoizedAlone? countFunction).map (fun q =>
      let hidden := ((rules .none none).storedTypes q.1.signature).flatMap Phrase.hidden
      (anyBears "a" q.1.signature.tokens, hidden.any fun p => anyBears "a" p.tokens,
        hidden.any fun p => anyBears "b" p.tokens, hidden.any (Phrase.strays "b" false))) =
      some (true, false, true, false) := by
    decide +kernel
  obtain ⟨⟨f, m⟩, hread, hrun⟩ := Option.map_eq_some_iff.mp hrun
  obtain ⟨hf, names', hparts⟩ := memoizedAlone?_eq_some hread
  simp only [Prod.mk.injEq] at hrun
  obtain ⟨hown, hclean, hbinder, hbound⟩ := hrun
  have hany (Q : Phrase → Bool) :
      (((rules .none none).storedTypes f.signature).flatMap Phrase.hidden).any Q = true ↔
        ∃ type ∈ (rules .none none).storedTypes f.signature, ∃ q ∈ type.hidden, Q q = true := by
    simp only [List.any_eq_true, List.mem_flatMap]
    constructor
    · rintro ⟨q, ⟨type, htype, hq⟩, h⟩
      exact ⟨type, htype, q, hq, h⟩
    · rintro ⟨type, htype, q, hq, h⟩
      exact ⟨q, ⟨type, htype, hq⟩, h⟩
  have hpath : ∀ x, anyBears x (CacheArgs.none.holder.getD
      CacheArgs.none.effectiveCratePath).tokens = false := by
    intro x
    simp [CacheArgs.none, CacheArgs.effectiveCratePath, CacheArgs.defaultCratePath, Path.tokens,
      Path.phrase, Path.phrases, Path.segments, Segment.phrases, SegmentArgs.phrases,
      Phrase.tokens]
  obtain ⟨holder, hholder, -, hwritten, -, hdeclared⟩ :=
    (holder_lifetimes_iff .none f.signature f.body .empty none "a" rfl (by decide)).1
      m names' hparts
  obtain ⟨holder', hholder', -, hwritten', hstrays', hdeclared'⟩ :=
    (holder_lifetimes_iff .none f.signature f.body .empty none "b" rfl (by decide)).1
      m names' hparts
  obtain rfl := Option.some.inj (hholder.symm.trans hholder')
  refine ⟨f, m, names', holder, hf, hparts, hholder, hown, ?_, ?_, ?_⟩
  · refine Bool.eq_false_iff.mpr fun h => ?_
    rw [hdeclared, ← or_assoc, hwritten, ← hany, hclean, hpath] at h
    rcases h with h | h <;> cases h
  · rw [hdeclared', ← or_assoc, hwritten', ← hany]
    exact Or.inl hbinder
  · refine fun k hk => Bool.eq_false_iff.mpr fun h => ?_
    have hstray := hstrays'.mp (Or.inl ⟨k, hk, h⟩)
    rw [← hany, hbound] at hstray
    cases hstray

/-- A function with a lifetime of its own that only its callback names. -/
def matchFunction : String :=
  "fn matching<'a>(test: fn(&'a str) -> bool) -> usize \x7b 0 \x7d"

/-- The key of a holder can have a lifetime of the function that no binder declares. -/
theorem holder_keeps_lifetime :
    ∃ f m names' holder, readFunction? matchFunction = some f ∧
      parts .none f.signature f.body .empty none = .ok (m, names') ∧ m.holder? = some holder ∧
      anyBears "a" f.signature.generics.phrase.tokens = true ∧
      (∃ k ∈ m.body.parts, k.subject.strays "a" false = true) ∧
      anyBears "a" holder.key = true ∧ anyBears "a" holder.tokens = true := by
  have hrun : (memoizedAlone? matchFunction).bind (fun q => q.2.holder?.map fun holder =>
      (anyBears "a" q.1.signature.generics.phrase.tokens,
        q.2.body.parts.any fun k => k.subject.strays "a" false,
        anyBears "a" holder.key, anyBears "a" holder.tokens)) =
      some (true, true, true, true) := by
    decide +kernel
  obtain ⟨⟨f, m⟩, hread, hmap⟩ := Option.bind_eq_some_iff.mp hrun
  obtain ⟨holder, hholder, heq⟩ := Option.map_eq_some_iff.mp hmap
  obtain ⟨hf, names', hparts⟩ := memoizedAlone?_eq_some hread
  simp only [Prod.mk.injEq, List.any_eq_true] at heq
  exact ⟨f, m, names', holder, hf, hparts, hholder, heq⟩

end Memoized

end Memoize
