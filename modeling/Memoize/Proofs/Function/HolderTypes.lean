import Memoize.Proofs.Function.Parts
import Memoize.Proofs.Scope.SiblingBlocks
import Memoize.Proofs.Types.SelfNames

/-!
# Names in the types of a holder

A holder that is a variable stands outside of its block, where `Self` has no meaning. Main
statement: if the type of the block is known without the name, the key and the value type of the
holder have the name exactly if a stored type of the function has it at a place that is neither
replaced nor looked at; at every other place it is replaced, or the function is refused
(`holder_self_iff`).

## Implementation notes

There are such places: the length of an array, the arguments of a macro, and, without a block, the
types of a function type (`holder_self_in_length`).
-/

namespace Memoize

open TokenTree Code

/-! ### Stored types -/

/-- The type whose values are stored for an input of a type: what a reference refers to, in the
place of the reference. -/
def Phrase.stored (type : Phrase) : Phrase :=
  match type.ungroup with
  | .reference _ _ _ target => target
  | _ => type

/-- Of a reference, what it refers to is stored. -/
theorem Phrase.stored_of_reference {type target : Phrase} {amp : Token}
    {region mutable : Option Token} (h : type.ungroup = .reference amp region mutable target) :
    type.stored = target := by
  simp only [stored, h]

/-- A type that is no reference is stored itself. -/
theorem Phrase.stored_of_isReference {type : Phrase} (h : type.ungroup.isReference = false) :
    type.stored = type := by
  unfold stored
  split
  · rename_i amp region mutable target heq
    rw [heq] at h
    cases h
  · rfl

/-- The type of an input that is no receiver. -/
def Input.type? : Input → Option Phrase
  | receiver _ => none
  | typed _ _ _ type => some type

/-- The types of the values that a holder stores: those of the parameters and of the result. -/
def Signature.storedTypes (s : Signature) : List Phrase :=
  (s.inputs.filterMap fun i => i.1.type?.map Phrase.stored) ++ s.output?.toList.map (·.2)

/-! ### Keys -/

/-- The names in a path from the root are its own. -/
theorem mem_allIdents_globalPath (x : String) (ns : List String) :
    x ∈ allIdents (globalPath ns) ↔ x ∈ ns := by
  rw [(Phrase.additive_names x).globalPath_iff]
  simp [ofName, TokenTree.idents]

/-- The name is in an owned type exactly if it is in the type. -/
theorem mem_allIdents_asToOwned (target : Phrase) :
    "Self" ∈ allIdents (KeyPart.asToOwned target) ↔ "Self" ∈ allIdents target.tokens := by
  simp [KeyPart.asToOwned, mem_allIdents_globalPath, ofName, TokenTree.idents]

/-- The names in a key are those in its parts. -/
theorem mem_allIdents_keyType (x : String) (params : List Param) :
    x ∈ allIdents (keyType params) ↔
      ∃ p ∈ params, x ∈ allIdents (KeyPart.ofParam p).typeTokens :=
  (Phrase.additive_names x).keyType_iff params

/-- Wrappings do not change the names of a type. -/
theorem allIdents_ungroup (p : Phrase) : allIdents p.ungroup.tokens = allIdents p.tokens := by
  fun_induction Phrase.ungroup p with
  | case1 d s inner ih => simp [ih, Phrase.tokens]
  | case2 p _ => rfl

/-- A type that is a reference only after the name is replaced is the type of the block. -/
theorem ungroup_substitute {self p : Phrase} (hp : p.ungroup.isReference = false)
    (h : (Phrase.substitute self p).ungroup.isReference = true) :
    (Phrase.substitute self p).ungroup = self.ungroup := by
  fun_induction Phrase.ungroup p with
  | case1 d s inner ih =>
      rw [Phrase.substitute, Phrase.ungroup] at h ⊢
      exact ih hp h
  | case2 p hwrapped =>
      cases p with
      | named leading head rest =>
          rw [Phrase.substitute] at h ⊢
          by_cases hbare : (Phrase.named leading head rest).isBareSelf = true
          · rw [if_pos hbare]
          · rw [if_neg hbare] at h
            simp [Phrase.ungroup, Phrase.isReference] at h
      | wrapped d s inner => exact absurd rfl (hwrapped d s inner)
      | reference amp region mutable target => simp [Phrase.isReference] at hp
      | _ => simp [Phrase.substitute, Phrase.ungroup, Phrase.isReference] at h

/-! ### Parameters -/

section Types

variable {rules : TypeRules}

/-- The part of the key for a parameter of a resolved type has the name exactly if the stored type
has it at a place that is passed over, and no name in that type is refused. -/
theorem ofParam_names (hforbid : rules.forbidSelf = true)
    (hself : ∀ self, rules.self? = some self → "Self" ∉ allIdents self.tokens) {type : Phrase}
    {p : Param} (h : rules.resolveParam type = .ok p.type) :
    ("Self" ∈ allIdents (KeyPart.ofParam p).typeTokens ↔
        type.stored.hides rules.self?.isSome true = true) ∧
      type.stored.refuses rules.self?.isSome = false := by
  obtain ⟨binding, pattern?, resolved⟩ := p
  change rules.resolveParam type = .ok resolved at h
  unfold TypeRules.resolveParam at h
  split at h
  · rename_i amp region mutable target htype
    rw [Phrase.stored_of_reference htype]
    cases htarget : rules.resolve target with
    | error ds => simp [htarget, Except.map] at h
    | ok target' =>
        simp only [htarget, Except.map] at h
        obtain rfl := Except.ok.inj h
        obtain ⟨hnames, hrefuses⟩ := TypeRules.resolve_names hforbid hself htarget
        refine ⟨?_, hrefuses⟩
        simp only [KeyPart.ofParam, Phrase.ungroup, KeyPart.typeTokens, allIdents_append,
          List.mem_append, mem_allIdents_asToOwned, mem_allIdents_globalPath, hnames]
        simp
  · rename_i hreference
    have htype : type.ungroup.isReference = false := by
      cases htype : type.ungroup with
      | reference amp region mutable target =>
          exact absurd htype (hreference amp region mutable target)
      | _ => rfl
    rw [Phrase.stored_of_isReference htype]
    obtain ⟨hnames, hrefuses⟩ := TypeRules.resolve_names hforbid hself h
    refine ⟨?_, hrefuses⟩
    rw [← hnames]
    obtain ⟨-, rfl⟩ := TypeRules.resolve_eq_ok_iff.mp h
    simp only [KeyPart.ofParam]
    split
    · rename_i amp region mutable target heq
      -- The type is that of the block, which does not have the name.
      obtain ⟨self, hknown, hungroup⟩ : ∃ self, rules.self? = some self ∧
          (rules.substituted type).ungroup = self.ungroup := by
        cases hknown : rules.self? with
        | none =>
            simp only [TypeRules.substituted, hknown] at heq
            rw [heq] at htype
            cases htype
        | some self =>
            simp only [TypeRules.substituted, hknown] at heq ⊢
            exact ⟨self, rfl, ungroup_substitute htype (by rw [heq]; rfl)⟩
      have hclean : "Self" ∉ allIdents (rules.substituted type).tokens := by
        rw [← allIdents_ungroup, hungroup, allIdents_ungroup]
        exact hself self hknown
      refine iff_of_false ?_ hclean
      rw [← allIdents_ungroup, heq] at hclean
      simp only [KeyPart.typeTokens, allIdents_append, List.mem_append, mem_allIdents_asToOwned,
        mem_allIdents_globalPath]
      simp [Phrase.tokens] at hclean ⊢
      exact hclean.2.2.2
    · simp only [KeyPart.typeTokens, allIdents_ungroup]

/-- Each parameter has the resolved type of its input. -/
theorem paramsFrom_resolved {is : List Input} {n : Nat} {ps : List Param}
    (h : Parameters.paramsFrom rules n is = .ok ps) :
    List.Forall₂ (fun type p => rules.resolveParam type = .ok p.type) (is.filterMap Input.type?)
      ps := by
  induction is generalizing n ps with
  | nil =>
      obtain rfl := Except.ok.inj h
      exact .nil
  | cons i rest ih =>
      cases i with
      | receiver r => exact ih h
      | typed attributes pattern colon type =>
          obtain ⟨p, qs, hp, hqs, rfl⟩ := Memoized.paramsFrom_typed_eq_ok.mp h
          obtain ⟨resolved, hresolve, htype, -⟩ := Memoized.paramOf_eq_ok hp
          refine .cons ?_ (ih hqs)
          rw [htype, hresolve]

/-- Keys and results of accepted parameters have the name exactly if a stored type has it at a place
that is passed over, and no name in a stored type is refused. -/
theorem extract_names (hforbid : rules.forbidSelf = true)
    (hself : ∀ self, rules.self? = some self → "Self" ∉ allIdents self.tokens) {s : Signature}
    {p : Parameters} (h : Parameters.extract rules s = .ok p) :
    ("Self" ∈ allIdents (keyType p.params) ∨ "Self" ∈ allIdents p.output.tokens ↔
        ∃ type ∈ s.storedTypes, type.hides rules.self?.isSome true = true) ∧
      ∀ type ∈ s.storedTypes, type.refuses rules.self?.isSome = false := by
  obtain ⟨-, ps, output, hps, hresult, rfl⟩ := Memoized.extract_eq_ok_iff.mp h
  have hinputs := paramsFrom_resolved hps
  rw [List.filterMap_map] at hinputs
  have hkey : ("Self" ∈ allIdents (keyType ps) ↔
        ∃ type ∈ s.inputs.filterMap (fun i => i.1.type?.map Phrase.stored),
          type.hides rules.self?.isSome true = true) ∧
      ∀ type ∈ s.inputs.filterMap (fun i => i.1.type?.map Phrase.stored),
        type.refuses rules.self?.isSome = false := by
    have hstored : s.inputs.filterMap (fun i => i.1.type?.map Phrase.stored) =
        (s.inputs.filterMap (Input.type? ∘ fun i => i.1)).map Phrase.stored := by
      rw [List.map_filterMap]
      rfl
    rw [hstored, mem_allIdents_keyType]
    generalize s.inputs.filterMap (Input.type? ∘ fun i => i.1) = types at hinputs
    clear hstored h hps
    induction hinputs with
    | nil => simp
    | @cons type p types ps hp _ ih =>
        obtain ⟨hnames, hrefuses⟩ := ofParam_names hforbid hself hp
        simp only [List.map_cons, List.mem_cons, exists_eq_or_imp, forall_eq_or_imp, hnames, ih.1,
          hrefuses, true_and]
        exact ih.2
  have hvalue : ("Self" ∈ allIdents output.tokens ↔
        ∃ type ∈ s.output?.toList.map (·.2), type.hides rules.self?.isSome true = true) ∧
      ∀ type ∈ s.output?.toList.map (·.2), type.refuses rules.self?.isSome = false := by
    unfold Parameters.resultOf at hresult
    cases hs : s.output? with
    | none =>
        rw [hs] at hresult
        obtain rfl := Except.ok.inj hresult
        simp [Parameters.unit, Phrase.tokens]
    | some r =>
        rw [hs] at hresult
        simpa using TypeRules.resolve_names hforbid hself hresult
  constructor
  · rw [hkey.1, hvalue.1, Signature.storedTypes]
    simp only [List.mem_append, or_and_right, exists_or]
  · intro type htype
    rcases List.mem_append.mp htype with htype | htype
    · exact hkey.2 type htype
    · exact hvalue.2 type htype

end Types

/-! ### Holders -/

namespace Memoized

/-- The types of a holder that is a variable, and not in a block or in one whose type is known
without the name `Self`. If the function is memoized, the holder has the name in its types exactly
if a stored type has it at a place that is neither replaced nor looked at. If a stored type has it
at a place that is looked at and not replaced, this is reported as an unresolved type, and the
function is refused. -/
theorem holder_self_iff (args : CacheArgs) (s : Signature) (body : List Statement) (names : Names)
    (owner? : Option Owner) (hinstance : args.instance_ = none)
    (howner : ∀ o, owner? = some o → "Self" ∉ allIdents o.selfType.tokens) :
    (∀ m names', parts args s body names owner? = .ok (m, names') →
      ∃ holder, m.holder? = some holder ∧
        ("Self" ∈ allIdents holder.key ∨ "Self" ∈ allIdents holder.value.tokens ↔
          ∃ type ∈ s.storedTypes, type.hides owner?.isSome true = true) ∧
        ∀ type ∈ s.storedTypes, type.refuses owner?.isSome = false) ∧
    ∀ type ∈ s.storedTypes, type.refuses owner?.isSome = true →
      (∃ ds, (rules args owner?).resolve type = .error ds ∧ ∃ d ∈ ds, Phrase.ReportsSelf d) ∧
        ∃ ds, parts args s body names owner? = .error (.refused ds) := by
  have hfield : args.field? = none := by rw [CacheArgs.field?, hinstance]; rfl
  have hrules : rules args owner? = ⟨owner?.map Owner.selfType, true⟩ := by
    simp [rules, hfield]
  have hself : ∀ self, (rules args owner?).self? = some self → "Self" ∉ allIdents self.tokens := by
    intro self hknown
    rw [hrules] at hknown
    obtain ⟨o, ho, rfl⟩ := Option.map_eq_some_iff.mp hknown
    exact howner o ho
  have hforbid : (rules args owner?).forbidSelf = true := by rw [hrules]
  have hknown : (rules args owner?).self?.isSome = owner?.isSome := by simp [hrules]
  have haccept : ∀ p, accept args s owner? = .ok p →
      ("Self" ∈ allIdents (keyType p.params) ∨ "Self" ∈ allIdents p.output.tokens ↔
        ∃ type ∈ s.storedTypes, type.hides owner?.isSome true = true) ∧
      ∀ type ∈ s.storedTypes, type.refuses owner?.isSome = false := by
    intro p hp
    obtain ⟨-, hextract, -⟩ := accept_eq_ok_iff.mp hp
    rw [← hknown]
    exact extract_names hforbid hself hextract
  constructor
  · intro m names' h
    obtain ⟨p, site, hp, hplace, -, rfl⟩ := parts_eq_ok_iff.mp h
    simp only [place, hfield] at hplace
    obtain ⟨r, -, heq⟩ := Option.map_eq_some_iff.mp hplace
    obtain ⟨rfl, -⟩ := Prod.mk.inj heq
    exact ⟨_, rfl, haccept p hp⟩
  · intro type htype hrefuses
    refine ⟨TypeRules.resolve_refuses hforbid (by rwa [hknown]), ?_⟩
    cases hp : accept args s owner? with
    | error ds => exact ⟨ds, parts_eq_refused_iff.mpr hp⟩
    | ok p =>
        rw [(haccept p hp).2 type htype] at hrefuses
        cases hrefuses

/-- The function that a text is. -/
def readFunction? (source : String) : Option Function :=
  (TokenTree.lex 0 source).bind Syntax.parseFunction?

/-- A function and the block it stands in, with what memoizing it without arguments gives. -/
def memoizedIn? (function block : String) : Option (Function × ImplBlock × Memoized) :=
  (readFunction? function).bind fun f =>
    (Scope.readBlock? block).bind fun b =>
      match parts .none f.signature f.body .empty (some (.of b)) with
      | .ok (m, _) => some (f, b, m)
      | .error _ => none

/-- What such a function, its block and its memoized parts are. -/
theorem memoizedIn?_eq_some {function block : String} {f : Function} {b : ImplBlock} {m : Memoized}
    (h : memoizedIn? function block = some (f, b, m)) :
    readFunction? function = some f ∧ Scope.readBlock? block = some b ∧
      ∃ names', parts .none f.signature f.body .empty (some (.of b)) = .ok (m, names') := by
  obtain ⟨f', hf, h⟩ := Option.bind_eq_some_iff.mp h
  obtain ⟨b', hb, h⟩ := Option.bind_eq_some_iff.mp h
  split at h
  · rename_i m' names' hparts
    cases h
    exact ⟨hf, hb, names', hparts⟩
  · cases h

/-- A block for a type that is a name. -/
def gridBlock : String := "impl Grid \x7b \x7d"

/-- A function of such a block with references to, and results of, the type of the block. -/
def gridFunction : String :=
  "fn pick(grid: &Self, index: usize) -> Option<Self> \x7b None \x7d"

/-- In the types of such a function every `Self` is replaced. -/
theorem holder_self_iff_replaced :
    ∃ f b m names' holder, readFunction? gridFunction = some f ∧
      Scope.readBlock? gridBlock = some b ∧ CacheArgs.none.instance_ = none ∧
      "Self" ∉ allIdents b.selfType.tokens ∧
      parts .none f.signature f.body .empty (some (.of b)) = .ok (m, names') ∧
      (f.signature.storedTypes.map fun type : Phrase => allIdents type.tokens) =
        [["Self"], ["usize"], ["Option", "Self"]] ∧
      m.holder? = some holder ∧ "Self" ∉ allIdents holder.key ∧
      "Self" ∉ allIdents holder.value.tokens := by
  have hrun : (memoizedIn? gridFunction gridBlock).map (fun q =>
      (allIdents q.2.1.selfType.tokens, q.1.signature.storedTypes.map fun type : Phrase =>
        (allIdents type.tokens, type.hides true true))) =
      some (["Grid"], [(["Self"], false), (["usize"], false), (["Option", "Self"], false)]) := by
    decide +kernel
  obtain ⟨⟨f, b, m⟩, hread, hrun⟩ := Option.map_eq_some_iff.mp hrun
  obtain ⟨hf, hb, names', hparts⟩ := memoizedIn?_eq_some hread
  obtain ⟨hblock, htypes⟩ := Prod.mk.inj hrun
  have howner : "Self" ∉ allIdents b.selfType.tokens := by
    rw [hblock]
    decide
  have hhides : ∀ type ∈ f.signature.storedTypes, type.hides true true = false := by
    intro type htype
    have hmem := List.mem_map_of_mem
      (f := fun type : Phrase => (allIdents type.tokens, type.hides true true)) htype
    rw [htypes] at hmem
    simp only [List.mem_cons, Prod.mk.injEq, List.not_mem_nil, or_false] at hmem
    rcases hmem with ⟨-, h⟩ | ⟨-, h⟩ | ⟨-, h⟩ <;> exact h
  have hiff := holder_self_iff .none f.signature f.body .empty (some (.of b)) rfl
    (by rintro o ho; obtain rfl := Option.some.inj ho; exact howner)
  obtain ⟨holder, hholder, hnames, -⟩ := hiff.1 m names' hparts
  have hclean : ¬ ("Self" ∈ allIdents holder.key ∨ "Self" ∈ allIdents holder.value.tokens) := by
    rw [hnames]
    rintro ⟨type, htype, h⟩
    rw [Option.isSome_some, hhides type htype] at h
    cases h
  obtain ⟨hkey, hvalue⟩ := not_or.mp hclean
  refine ⟨f, b, m, names', holder, hf, hb, rfl, howner, hparts, ?_, hholder, hkey, hvalue⟩
  have hfirst := congrArg (List.map Prod.fst) htypes
  rw [List.map_map] at hfirst
  exact hfirst

/-- A function of such a block whose result is an array of a length that the block tells. -/
def rowFunction : String :=
  "fn row(i: usize) -> [u8; Self::N] \x7b [0; Self::N] \x7d"

/-- The value type of a holder can have the name in the length of an array, although the type of the
block is known. -/
theorem holder_self_in_length :
    ∃ f b m names' holder, readFunction? rowFunction = some f ∧
      Scope.readBlock? gridBlock = some b ∧ "Self" ∉ allIdents b.selfType.tokens ∧
      parts .none f.signature f.body .empty (some (.of b)) = .ok (m, names') ∧
      m.holder? = some holder ∧ "Self" ∈ allIdents holder.value.tokens := by
  have hrun : (memoizedIn? rowFunction gridBlock).bind (fun q => q.2.2.holder?.map fun holder =>
      (allIdents q.2.1.selfType.tokens, allIdents holder.value.tokens)) =
      some (["Grid"], ["u8", "Self", "N"]) := by
    decide +kernel
  obtain ⟨⟨f, b, m⟩, hread, hmap⟩ := Option.bind_eq_some_iff.mp hrun
  obtain ⟨holder, hholder, heq⟩ := Option.map_eq_some_iff.mp hmap
  obtain ⟨hf, hb, names', hparts⟩ := memoizedIn?_eq_some hread
  obtain ⟨hblock, hvalue⟩ := Prod.mk.inj heq
  refine ⟨f, b, m, names', holder, hf, hb, ?_, hparts, hholder, ?_⟩
  · rw [hblock]
    decide
  · rw [hvalue]
    decide

end Memoized

end Memoize
