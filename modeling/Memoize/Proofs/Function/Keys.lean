import Memoize.Proofs.Function.HolderTypes

/-!
# Keys of signatures

The names in a signature, the types of a key and its values are read off the parameters one by one.
Main statement: they agree position by position, and the signature with its names put in is read
like the one it was made from (`Parameters.extract_in_step`).

## Implementation notes

A part of a key tells by the resolved type how it is made, not by how its own type is written: a
type that is written like an owned form is cloned, and parentheses around a type are left out
(`Parameters.key_written_otherwise`).
-/

namespace Memoize

open TokenTree Code

/-! ### Parts of a key -/

namespace KeyPart

/-- The type of the owned form of a type. -/
def ownedType (target : Phrase) : List TokenTree := asToOwned target ++ globalPath ["Owned"]

/-- What a reference to a type refers to, owned. -/
def toOwned (target : Phrase) (binding : Token) : List TokenTree :=
  asToOwned target ++ globalPath ["to_owned"] ++
    parens (ofSign "&" ++ ofSign "*" ++ [.leaf binding])

/-- The type and the expression that a key has for a parameter: what a reference refers to in its
owned form, and a clone of anything else. -/
inductive Holds (type : Phrase) (binding : Token) : List TokenTree → List TokenTree → Prop
  | owned {amp : Token} {region mutable : Option Token} {target : Phrase}
      (h : type.ungroup = .reference amp region mutable target) :
      Holds type binding (ownedType target) (toOwned target binding)
  | cloned (h : type.ungroup.isReference = false) :
      Holds type binding type.ungroup.tokens (Code.cloned (.leaf binding))

/-- An owned form is not written like a clone. -/
theorem toOwned_ne_cloned (target : Phrase) (binding : Token) :
    toOwned target binding ≠ Code.cloned (.leaf binding) := by
  intro h
  have hfirst := congrArg List.head? h
  simp [toOwned, asToOwned, Code.cloned, globalPath, ofSign, ofSign.go] at hfirst

/-- The expression is a clone exactly if the type is no reference. -/
theorem Holds.eq_cloned_iff {type : Phrase} {binding : Token} {t e : List TokenTree}
    (h : Holds type binding t e) :
    e = Code.cloned (.leaf binding) ↔ type.ungroup.isReference = false := by
  cases h with
  | owned htype => simp [toOwned_ne_cloned, htype, Phrase.isReference]
  | cloned htype => simp [htype]

/-- The part of a key for a parameter. -/
theorem holds_ofParam (p : Param) :
    Holds p.type p.binding (ofParam p).typeTokens (ofParam p).exprTokens := by
  unfold ofParam
  split
  · rename_i htype
    exact .owned htype
  · rename_i hreference
    refine .cloned ?_
    cases htype : p.type.ungroup with
    | reference amp region mutable target =>
        exact absurd htype (hreference amp region mutable target)
    | _ => rfl

end KeyPart

/-- The part of the key for a parameter has its name. -/
@[simp] theorem KeyPart.binding_ofParam (p : Param) : (ofParam p).binding = p.binding := by
  unfold ofParam
  split <;> rfl

/-! ### Signatures with their names put in -/

/-- A parameter under its name alone. -/
def Param.named (p : Param) : Param := { p with pattern? := none }

/-- The key does not depend on the patterns. -/
theorem keyParts_named (ps : List Param) : keyParts (ps.map Param.named) = keyParts ps := by
  simp [keyParts, Param.named, KeyPart.ofParam]

namespace Parameters

variable {rules : TypeRules}

/-- An input with its name put in is read as the parameter it was read as, under its name alone. -/
theorem paramOf_rebound {n : Nat} {pattern : Pattern} {type : Phrase} {p : Param}
    (h : paramOf rules n pattern type = .ok p) :
    let new : Pattern :=
      if p.pattern?.isSome then ⟨.word p.binding, some p.binding, [p.binding.name]⟩ else pattern
    new.plain? = some p.binding ∧ paramOf rules n new type = .ok p.named := by
  obtain ⟨resolved, hresolve, htype, ⟨t, hplain, hbinding, hpattern⟩ | ⟨-, -, hpattern⟩⟩ :=
    Memoized.paramOf_eq_ok h
  all_goals
    obtain ⟨binding, pattern?, type'⟩ := p
    subst htype hpattern
  · subst hbinding
    simp [paramOf, hresolve, hplain, Except.map, Param.named]
  · simp [paramOf, hresolve, Except.map, Param.named]

/-- The inputs with their names put in are read as the parameters they were read as, under their
names alone. -/
theorem paramsFrom_rebindFrom {is : List (Input × Option Token)} {n : Nat} {ps : List Param}
    (h : paramsFrom rules n (is.map (·.1)) = .ok ps) :
    List.Forall₂ (fun (i : Pattern × Phrase) (p : Param) =>
        i.1.plain? = some p.binding ∧ rules.resolveParam i.2 = .ok p.type)
      ((rebindFrom is ps).filterMap fun i => i.1.typed?) ps ∧
    paramsFrom rules n ((rebindFrom is ps).map (·.1)) = .ok (ps.map Param.named) := by
  induction is generalizing n ps with
  | nil =>
      obtain rfl := Except.ok.inj h
      exact ⟨.nil, rfl⟩
  | cons i rest ih =>
      obtain ⟨input, comma⟩ := i
      cases input with
      | receiver r =>
          rw [rebindFrom]
          exact ih h
      | typed attributes pattern colon type =>
          obtain ⟨p, qs, hp, hqs, rfl⟩ := Memoized.paramsFrom_typed_eq_ok.mp h
          obtain ⟨hplain, hrebound⟩ := paramOf_rebound hp
          obtain ⟨resolved, hresolve, htype, -⟩ := Memoized.paramOf_eq_ok hp
          obtain ⟨hnames, hrest⟩ := ih hqs
          rw [rebindFrom]
          refine ⟨.cons ⟨hplain, ?_⟩ hnames, ?_⟩
          · rw [hresolve, htype]
          · exact Memoized.paramsFrom_typed_eq_ok.mpr ⟨_, _, hrebound, hrest, rfl⟩

/-- Putting names into inputs keeps the receiver. -/
theorem receiver?_rebind (p : Parameters) (s : Signature) :
    (p.rebind s).receiver? = s.receiver? := by
  have hinputs (is : List (Input × Option Token)) (ps : List Param) :
      ({ s with inputs := rebindFrom is ps } : Signature).receiver? =
        ({ s with inputs := is } : Signature).receiver? := by
    fun_induction rebindFrom is ps with
    | case1 ps => rfl
    | case2 r comma rest ps ih => rfl
    | case3 attributes pattern colon type comma rest p ps new ih => exact ih
    | case4 i rest hreceiver ih =>
        obtain ⟨input, comma⟩ := i
        cases input with
        | receiver r => rfl
        | typed attributes pattern colon type => exact ih
  exact hinputs s.inputs p.params

/-- The parameters that are read off a signature. Its inputs with the names put in are plain names,
those of the parameters, one by one, and their types resolve to those of the parameters. The key has
one type and one expression for each parameter and none for the receiver, both made of the resolved
type without what is wrapped around it: of the owned form of what it refers to if it is a reference,
and of a clone otherwise. The signature with the names put in is read alike, without any pattern. -/
theorem extract_in_step {s : Signature} {p : Parameters} (h : extract rules s = .ok p) :
    List.Forall₂ (fun (i : Pattern × Phrase) (q : Param) =>
        i.1.plain? = some q.binding ∧ rules.resolveParam i.2 = .ok q.type)
      (p.rebind s).typed p.params ∧
    (∃ parts : List (List TokenTree × List TokenTree),
      List.Forall₂ (fun (q : Param) part =>
          KeyPart.Holds q.type q.binding part.1 part.2 ∧
            (part.2 = Code.cloned (.leaf q.binding) ↔ q.type.ungroup.isReference = false))
        p.params parts ∧
      keyType p.params = parens (parts.flatMap fun part => part.1 ++ ofSign ",") ∧
      keyExpr p.params = parens (parts.flatMap fun part => part.2 ++ ofSign ",")) ∧
    ∃ q, extract rules (p.rebind s) = .ok q ∧ q.receiver? = p.receiver? ∧
      (∀ r ∈ q.params, r.pattern? = none) ∧
      q.params.map Param.binding = p.params.map Param.binding ∧
      keyType q.params = keyType p.params ∧ keyExpr q.params = keyExpr p.params ∧
      q.output = p.output := by
  obtain ⟨hqualifiers, ps, output, hps, hresult, rfl⟩ := Memoized.extract_eq_ok_iff.mp h
  obtain ⟨hnames, hrebound⟩ := paramsFrom_rebindFrom hps
  refine ⟨hnames, ?_, ?_⟩
  · refine ⟨(keyParts ps).map fun k => (k.typeTokens, k.exprTokens), ?_, ?_, ?_⟩
    · rw [keyParts, List.map_map, List.forall₂_map_right_iff, List.forall₂_same]
      intro q _
      exact ⟨KeyPart.holds_ofParam q, (KeyPart.holds_ofParam q).eq_cloned_iff⟩
    · simp [keyType, tuple, List.flatMap_map]
    · simp [keyExpr, tuple, List.flatMap_map]
  · refine ⟨⟨s.receiver?, ps.map Param.named, output⟩, ?_, rfl, ?_, ?_, ?_, ?_, rfl⟩
    · refine Memoized.extract_eq_ok_iff.mpr ⟨hqualifiers, _, output, hrebound, hresult, ?_⟩
      rw [receiver?_rebind]
    · intro r hr
      obtain ⟨q, -, rfl⟩ := List.mem_map.mp hr
      rfl
    · simp [Param.named]
    · rw [keyType, keyParts_named, keyType]
    · rw [keyExpr, keyParts_named, keyExpr]

/-- A method with a plain parameter, a reference, and parameters that are taken apart. -/
def spanFunction : String :=
  "fn span(&self, mut first: u8, (start, end): (u32, u32), text: (&str), _: bool) -> u32 \x7b " ++
    "end - start \x7d"

/-- The signature of a text and what is read off it, for a holder in an instance. -/
def read? (function : String) : Option (Signature × Parameters) :=
  (Memoized.readFunction? function).bind fun f =>
    match extract .permissive f.signature with
    | .ok p => some (f.signature, p)
    | .error _ => none

/-- What such a signature is. -/
theorem read?_eq_some {function : String} {s : Signature} {p : Parameters}
    (h : read? function = some (s, p)) :
    (∃ f, Memoized.readFunction? function = some f ∧ f.signature = s) ∧
      extract .permissive s = .ok p := by
  obtain ⟨f, hf, h⟩ := Option.bind_eq_some_iff.mp h
  split at h
  · rename_i q hq
    cases h
    exact ⟨⟨f, hf, rfl⟩, hq⟩
  · cases h

/-- The key of such a method has four parts, the third of which owns what is referred to. -/
theorem extract_in_step_span :
    ∃ f p q, Memoized.readFunction? spanFunction = some f ∧
      extract .permissive f.signature = .ok p ∧
      p.params.map (fun r => (r.binding.name, r.pattern?.isSome)) =
        [("first", false), ("__recall_arg1", true), ("text", false), ("__recall_arg3", true)] ∧
      allWords (keyType p.params) =
        ["(", "u8", ",", "(", "u32", ",", "u32", ")", ",", "<", "str", "as", ":", ":", "std", ":",
          ":", "borrow", ":", ":", "ToOwned", ">", ":", ":", "Owned", ",", "bool", ",", ")"] ∧
      extract .permissive (p.rebind f.signature) = .ok q ∧ (∀ r ∈ q.params, r.pattern? = none) ∧
      keyType q.params = keyType p.params := by
  have hrun : (read? spanFunction).map (fun r =>
      (r.2.params.map (fun q => (q.binding.name, q.pattern?.isSome)),
        allWords (keyType r.2.params))) =
      some ([("first", false), ("__recall_arg1", true), ("text", false), ("__recall_arg3", true)],
        ["(", "u8", ",", "(", "u32", ",", "u32", ")", ",", "<", "str", "as", ":", ":", "std", ":",
          ":", "borrow", ":", ":", "ToOwned", ">", ":", ":", "Owned", ",", "bool", ",", ")"]) := by
    decide +kernel
  obtain ⟨⟨s, p⟩, hread, hrun⟩ := Option.map_eq_some_iff.mp hrun
  obtain ⟨⟨f, hf, rfl⟩, hextract⟩ := read?_eq_some hread
  obtain ⟨hparams, hkey⟩ := Prod.mk.inj hrun
  obtain ⟨-, -, q, hq, -, hpatterns, -, htype, -⟩ := extract_in_step hextract
  exact ⟨f, p, q, hf, hextract, hparams, hkey, hq, hpatterns, htype⟩

/-- A function with a type that is written like an owned form, and with one in parentheses. -/
def writtenFunction : String :=
  "fn f(s: <str as ::std::borrow::ToOwned>::Owned, n: (u8)) -> u8 \x7b n \x7d"

/-- Both parameters of such a function are cloned for the key. The type of the first part is written
like the owned form of a type, and the type of the second is not that of its parameter. -/
theorem key_written_otherwise :
    ∃ f p q r, Memoized.readFunction? writtenFunction = some f ∧
      extract .permissive f.signature = .ok p ∧ p.params = [q, r] ∧
      (∃ target, allWords (KeyPart.ofParam q).typeTokens = allWords (KeyPart.ownedType target) ∧
        allWords (KeyPart.ofParam q).exprTokens ≠
          allWords (KeyPart.toOwned target q.binding)) ∧
      allWords (KeyPart.ofParam r).exprTokens = allWords (Code.cloned (.leaf r.binding)) ∧
      allWords (KeyPart.ofParam r).typeTokens ≠ allWords r.type.tokens := by
  let target : Phrase := .named [] ⟨.name "str", none⟩ []
  -- Like an owned form, like a reference made owned, like a clone, like the type of the parameter.
  have hrun : (read? writtenFunction).map (fun x => x.2.params.map fun q =>
      (decide (allWords (KeyPart.ofParam q).typeTokens = allWords (KeyPart.ownedType target)),
        decide (allWords (KeyPart.ofParam q).exprTokens =
          allWords (KeyPart.toOwned target q.binding)),
        decide (allWords (KeyPart.ofParam q).exprTokens = allWords (Code.cloned (.leaf q.binding))),
        decide (allWords (KeyPart.ofParam q).typeTokens = allWords q.type.tokens))) =
      some [(true, false, true, true), (false, false, true, false)] := by
    decide +kernel
  obtain ⟨⟨s, p⟩, hread, hparams⟩ := Option.map_eq_some_iff.mp hrun
  obtain ⟨⟨f, hf, rfl⟩, hextract⟩ := read?_eq_some hread
  obtain ⟨q, rest, hpq, hq, hrest⟩ := List.map_eq_cons_iff.mp hparams
  obtain ⟨r, rfl, hr⟩ := List.map_eq_singleton_iff.mp hrest
  simp only [Prod.mk.injEq, decide_eq_true_eq, decide_eq_false_iff_not] at hq hr
  exact ⟨f, p, q, r, hf, hextract, hpq, ⟨target, hq.1, hq.2.1⟩, hr.2.2.1, hr.2.2.2⟩

end Parameters

end Memoize
