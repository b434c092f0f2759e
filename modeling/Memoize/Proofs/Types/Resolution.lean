import Memoize.Proofs.Types.Offences

/-!
# Resolving again

A type from which `Self` is gone is resolved to itself, and the type of a parameter is resolved like
any other type unless it is a reference. Main statement: resolving a resolved type changes nothing,
and parameters are accepted if their types are, or if they are references to a type that is, of any
lifetime (`TypeRules.resolve_stable`).
-/

namespace Memoize

namespace Phrase

variable {self : Phrase}

/-! ### Substitution by parts -/

/-- The name is replaced in every phrase of a row. -/
theorem substituteAll_eq_map (self : Phrase) (ps : List Phrase) :
    substituteAll self ps = ps.map (substitute self) := by
  induction ps with
  | nil => rfl
  | cons p ps ih => rw [substituteAll, ih, List.map_cons]

/-- In a phrase that is not the name itself, the name is replaced in the parts. -/
theorem parts_substitute {p : Phrase} (h : p.isBareSelf = false) :
    (substitute self p).parts = p.parts.map (substitute self) := by
  cases p with
  | named leading head rest => simp [substitute, h, parts, substituteAll_eq_map]
  | reference amp region mutable target => cases region <;> simp [substitute, parts]
  | _ => simp [substitute, parts, substituteAll_eq_map]

/-- A phrase stays the same if it is not the name and its parts stay the same. -/
theorem substitute_eq_of_parts {p : Phrase} (h : p.isBareSelf = false)
    (hparts : ∀ q ∈ p.parts, substitute self q = q) : substitute self p = p := by
  have hrow {ps : List Phrase} (hps : ∀ q ∈ ps, substitute self q = q) :
      substituteAll self ps = ps := by
    rw [substituteAll_eq_map]
    exact (List.map_congr_left hps).trans (List.map_id ps)
  cases p with
  | word _ | raw _ | lifetime _ | hole _ => rfl
  | group _ _ ps | seq ps | implTrait ps | shielded ps | lifetimesFirst ps =>
      have hps : substituteAll self ps = ps := hrow hparts
      rw [substitute, hps]
  | named leading head rest =>
      have hrest : substituteAll self rest = rest := hrow hparts
      rw [substitute, if_neg (by simp [h]), hrest]
  | reference amp region mutable target =>
      rw [substitute, hparts target (by simp [parts])]
  | wrapped d s inner => rw [substitute, hparts inner (by simp [parts])]
  | receiver shown implied =>
      rw [substitute, hrow fun q hq => hparts q (by simp [parts, hq]),
        hparts implied (by simp [parts])]
  | late clause between =>
      rw [substitute, hparts clause (by simp [parts]), hparts between (by simp [parts])]
  | entry l value comma => rw [substitute, hparts value (by simp [parts])]

/-- No node of a phrase is the bare name `Self`. -/
def SelfFree (p : Phrase) : Prop := p.Everywhere fun _ node => node.isBareSelf = false

instance (p : Phrase) : Decidable p.SelfFree :=
  inferInstanceAs (Decidable (p.Everywhere fun _ node => node.isBareSelf = false))

/-- The name is no node of a phrase if it is neither the phrase nor a node of a part. -/
theorem selfFree_iff {p : Phrase} :
    p.SelfFree ↔ p.isBareSelf = false ∧ ∀ q ∈ p.parts, q.SelfFree := by
  rw [SelfFree, everywhere_iff]
  refine and_congr_right fun _ => ⟨fun h q hq => ?_, fun h i q hq => ?_⟩
  · obtain ⟨i, hi⟩ := List.getElem?_of_mem hq
    exact h i q hi
  · exact h q (List.mem_of_getElem? hq)

/-- Nothing is replaced in a phrase without the name. -/
theorem SelfFree.substitute_eq {p : Phrase} (h : p.SelfFree) : substitute self p = p := by
  induction p using induction_parts with
  | step p ih =>
      obtain ⟨hp, hparts⟩ := selfFree_iff.mp h
      exact substitute_eq_of_parts hp fun q hq => ih q hq (hparts q hq)

/-- The name is gone after it is replaced by a type without it. -/
theorem SelfFree.substitute (hself : self.SelfFree) (p : Phrase) :
    (Phrase.substitute self p).SelfFree := by
  induction p using induction_parts with
  | step p ih =>
      cases hbare : p.isBareSelf with
      | true =>
          rw [substitute_of_isBareSelf hbare]
          exact hself
      | false =>
          refine selfFree_iff.mpr ⟨isBareSelf_substitute_of_not hbare, ?_⟩
          rw [parts_substitute hbare]
          intro q hq
          obtain ⟨r, hr, rfl⟩ := List.mem_map.mp hq
          exact ih r hr

end Phrase

namespace TypeRules

variable {rules : TypeRules}

/-! ### References and wrappings -/

/-- The name is replaced in what a reference refers to. -/
theorem substituted_reference (rules : TypeRules) (amp : Token) (region mutable : Option Token)
    (target : Phrase) : rules.substituted (.reference amp region mutable target) =
      .reference amp region mutable (rules.substituted target) := by
  unfold substituted
  cases rules.self? <;> rfl

/-- The name is replaced in a type with parentheses or a fragment around it. -/
theorem substituted_wrapped (rules : TypeRules) (d : Delimiter) (s : Option Span)
    (inner : Phrase) :
    rules.substituted (.wrapped d s inner) = .wrapped d s (rules.substituted inner) := by
  unfold substituted
  cases rules.self? <;> rfl

/-- A reference is resolved if it is `'static` and refers to a type that is. -/
theorem resolve_reference_eq_ok_iff {amp : Token} {region mutable : Option Token}
    {target t : Phrase} :
    rules.resolve (.reference amp region mutable target) = .ok t ↔
      (∃ l, region = some l ∧ l.word = .lifetime "static") ∧
        ∃ u, rules.resolve target = .ok u ∧ t = .reference amp region mutable u := by
  simp only [resolve_eq_ok_iff, substituted_reference, Phrase.offences.eq_def _ (.reference ..),
    List.append_eq_nil_iff]
  cases region with
  | none => simp
  | some l =>
      have hl : Phrase.lifetimeOffence l = [] ↔ l.word = .lifetime "static" := by
        simp [Phrase.lifetimeOffence]
      simp only [hl, Option.some.injEq, exists_eq_left', and_assoc]
      refine and_congr_right fun _ => ?_
      constructor
      · rintro ⟨hclean, rfl⟩
        exact ⟨_, hclean, rfl, rfl⟩
      · rintro ⟨_, hclean, rfl, rfl⟩
        exact ⟨hclean, rfl⟩

/-- Parentheses and fragments around a type are kept around what it is resolved to. -/
theorem resolve_wrapped (rules : TypeRules) (d : Delimiter) (s : Option Span) (type : Phrase) :
    rules.resolve (.wrapped d s type) = (rules.resolve type).map (.wrapped d s) := by
  unfold resolve
  rw [substituted_wrapped, Phrase.offences]
  cases (rules.substituted type).offences rules.forbidSelf <;> rfl

/-- Parentheses and fragments around the type of a parameter are kept around what it is resolved to,
unless it is a reference. -/
theorem resolveParam_wrapped (rules : TypeRules) (d : Delimiter) (s : Option Span)
    (type : Phrase) :
    rules.resolveParam (.wrapped d s type) =
      if type.ungroup.isReference then rules.resolveParam type
      else (rules.resolveParam type).map (.wrapped d s) := by
  unfold resolveParam
  rw [Phrase.ungroup]
  cases type.ungroup <;> simp [Phrase.isReference, resolve_wrapped]

/-! ### Resolving again -/

/-- A resolved type resolves to itself. -/
theorem resolve_resolved (hself : ∀ self, rules.self? = some self → self.SelfFree)
    {type t : Phrase} (h : rules.resolve type = .ok t) : rules.resolve t = .ok t := by
  obtain ⟨hclean, rfl⟩ := resolve_eq_ok_iff.mp h
  have hfixed : rules.substituted (rules.substituted type) = rules.substituted type := by
    unfold substituted
    cases hrules : rules.self? with
    | none => rfl
    | some self => exact ((hself self hrules).substitute type).substitute_eq
  exact resolve_eq_ok_iff.mpr ⟨by rwa [hfixed], hfixed.symm⟩

/-- A type that is resolved is accepted for a parameter, and the two resolved types differ in what
is around them only. -/
theorem resolveParam_of_resolve {type t : Phrase} (h : rules.resolve type = .ok t) :
    ∃ u, rules.resolveParam type = .ok u ∧ u.ungroup = t.ungroup := by
  fun_induction Phrase.ungroup type generalizing t with
  | case1 d s inner ih =>
      rw [resolve_wrapped] at h
      cases hinner : rules.resolve inner with
      | error ds => rw [hinner] at h; cases h
      | ok t' =>
          rw [hinner] at h
          obtain rfl := Except.ok.inj h
          obtain ⟨u, hu, hungroup⟩ := ih hinner
          rw [resolveParam_wrapped, hu]
          split
          · exact ⟨u, rfl, hungroup⟩
          · exact ⟨.wrapped d s u, rfl, hungroup⟩
  | case2 type hwrapped =>
      cases type with
      | wrapped d s inner => exact absurd rfl (hwrapped d s inner)
      | reference amp region mutable target =>
          obtain ⟨-, u, hu, rfl⟩ := resolve_reference_eq_ok_iff.mp h
          exact ⟨_, by simp [resolveParam, Phrase.ungroup, hu, Except.map], rfl⟩
      | _ => exact ⟨t, by simpa [resolveParam, Phrase.ungroup] using h, rfl⟩

/-- A type that is a reference but for what is around it is resolved if the reference is `'static`
and refers to a type that is resolved. -/
theorem exists_resolve_iff_of_reference {type amp region mutable target}
    (h : Phrase.ungroup type = .reference amp region mutable target) :
    (∃ t, rules.resolve type = .ok t) ↔
      (∃ l, region = some l ∧ l.word = .lifetime "static") ∧
        ∃ t, rules.resolve target = .ok t := by
  fun_induction Phrase.ungroup type with
  | case1 d s inner ih =>
      rw [resolve_wrapped, ← ih h]
      cases rules.resolve inner <;> simp [Except.map]
  | case2 type hwrapped =>
      subst h
      simp only [resolve_reference_eq_ok_iff]
      constructor
      · rintro ⟨t, hl, u, hu, -⟩
        exact ⟨hl, u, hu⟩
      · rintro ⟨hl, u, hu⟩
        exact ⟨_, hl, u, hu, rfl⟩

/-- Resolving for rules under which the type of the block does not name the block again. A resolved
type resolves to itself. A type that is resolved is also accepted for a parameter, where it resolves
to the same type but for what is around it. The types that are accepted for a parameter are these
and all references, with anything around them, to a type that is resolved; of the references, those
and only those are accepted elsewhere too that are `'static`. -/
theorem resolve_stable (rules : TypeRules)
    (hself : ∀ self, rules.self? = some self → self.SelfFree) (type : Phrase) :
    (∀ t, rules.resolve type = .ok t →
      rules.resolve t = .ok t ∧ ∃ u, rules.resolveParam type = .ok u ∧ u.ungroup = t.ungroup) ∧
    ((∃ u, rules.resolveParam type = .ok u) ↔
      (∃ t, rules.resolve type = .ok t) ∨
        ∃ amp region mutable target, type.ungroup = .reference amp region mutable target ∧
          ∃ t, rules.resolve target = .ok t) ∧
    ∀ amp region mutable target, type.ungroup = .reference amp region mutable target →
      ((∃ t, rules.resolve type = .ok t) ↔
        (∃ l, region = some l ∧ l.word = .lifetime "static") ∧
          ∃ t, rules.resolve target = .ok t) := by
  refine ⟨fun t h => ⟨resolve_resolved hself h, resolveParam_of_resolve h⟩, ?_, ?_⟩
  · constructor
    · rintro ⟨u, hu⟩
      unfold resolveParam at hu
      split at hu
      · rename_i amp region mutable target htype
        refine Or.inr ⟨amp, region, mutable, target, htype, ?_⟩
        cases htarget : rules.resolve target with
        | error ds => rw [htarget] at hu; cases hu
        | ok t => exact ⟨t, rfl⟩
      · exact Or.inl ⟨u, hu⟩
    · rintro (⟨t, ht⟩ | ⟨amp, region, mutable, target, htype, t, ht⟩)
      · obtain ⟨u, hu, -⟩ := resolveParam_of_resolve ht
        exact ⟨u, hu⟩
      · exact ⟨.reference amp region mutable t, by simp only [resolveParam, htype, ht, Except.map]⟩
  · intro amp region mutable target htype
    exact exists_resolve_iff_of_reference htype

/-- A type in parentheses that names the type of the block is resolved, again and for a parameter.
-/
theorem resolve_stable_point :
    ∃ self type t u, readType? "Point" = some self ∧ self.SelfFree ∧
      readType? "(Option<Self>)" = some type ∧
      (⟨some self, true⟩ : TypeRules).resolve type = .ok t ∧
      TokenTree.allWords t.tokens = ["(", "Option", "<", "Point", ">", ")"] ∧
      (⟨some self, true⟩ : TypeRules).resolve t = .ok t ∧
      (⟨some self, true⟩ : TypeRules).resolveParam type = .ok u ∧ u.ungroup = t.ungroup := by
  have hrun : (readType? "Point").bind (fun self => (readType? "(Option<Self>)").map fun type =>
      (decide self.SelfFree, match (⟨some self, true⟩ : TypeRules).resolve type with
        | .ok t => TokenTree.allWords t.tokens
        | .error _ => [])) =
      some (true, ["(", "Option", "<", "Point", ">", ")"]) := by
    decide +kernel
  obtain ⟨self, hself, hrun⟩ := Option.bind_eq_some_iff.mp hrun
  obtain ⟨type, htype, hrun⟩ := Option.map_eq_some_iff.mp hrun
  obtain ⟨hfree, hwords⟩ := Prod.mk.inj hrun
  split at hwords
  · rename_i t ht
    have hrules : ∀ s, (⟨some self, true⟩ : TypeRules).self? = some s → s.SelfFree := by
      rintro s ⟨⟩
      exact of_decide_eq_true hfree
    obtain ⟨hagain, u, hu, hungroup⟩ := (resolve_stable ⟨some self, true⟩ hrules type).1 t ht
    exact ⟨self, type, t, u, hself, of_decide_eq_true hfree, htype, ht, hwords, hagain, hu,
      hungroup⟩
  · cases hwords

end TypeRules

end Memoize
