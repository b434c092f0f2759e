import Memoize.Proofs.Types.Lifetimes
import Memoize.Proofs.Types.Resolution

/-!
# Lifetimes that stand for all lifetimes

A lifetime that a binder of the type declares, or that is left out in a function type, is no
borrowed data. Main statement: a type in which every other lifetime is `'static`, and in which every
type has a name, is resolved as it is exactly if no binder outside of function types and the
parameters of callables declares a lifetime; otherwise the lifetimes of such binders are reported
(`TypeRules.resolve_higherRanked`).

## Implementation notes

So a callback that takes a borrowed argument is resolved if its lifetime is left out, and refused if
the same lifetime is written with `for` before the bound (`TypeRules.binder_of_bound_reported`);
before a function type the binder is allowed.
-/

namespace Memoize

namespace Phrase

/-! ### Bound lifetimes -/

/-- Whether a lifetime is bound at a part of a row, by a binder that comes before it in the row or
whose parameter it is. At the beginning of the row it may be `bound`, and a binder opened. -/
def isBoundIn (x : String) (bound : Bool) (o : Opening) : List Phrase → Nat → Bool
  | [], _ => false
  | p :: _, 0 => boundFrom x false bound o p
  | p :: rest, i + 1 => isBoundIn x (boundFrom x false bound o p) (o.after p) rest i

/-- Whether a lifetime is bound at a place by a binder of the phrase. -/
def isBoundAt (x : String) : Phrase → List Nat → Bool
  | _, [] => false
  | p, i :: place =>
    isBoundIn x false .closed p.parts i || p.parts[i]?.any fun q => q.isBoundAt x place

/-- Whether a node of a type is no lifetime, or is one that is `'static` or stands for all
lifetimes: one that a binder declares, or that is left out in a function type or among the
parameters of a callable. -/
def standsForAll (t : Phrase) (place : List Nat) : Phrase → Bool
  | reference _ none _ _ => !t.isOpen place
  | lifetime ⟨.lifetime x, _⟩ =>
    x == "static" || t.isBoundAt x place || x == "_" && !t.isOpen place
  | lifetime _ => false
  | _ => true

/-- Every lifetime of a type, written or left out, is `'static` or stands for all lifetimes. -/
def HigherRanked (t : Phrase) : Prop :=
  t.Everywhere fun place node => t.standsForAll place node = true

/-- Whether a node is neither an `impl` type nor a hole nor a type that begins with `Self`. -/
def isNamed : Phrase → Bool
  | implTrait _ | hole _ => false
  | named _ head _ => !head.isSelf
  | _ => true

/-- Every type in a type has a name. -/
def Nameable (t : Phrase) : Prop := t.Everywhere fun _ node => node.isNamed = true

instance (t : Phrase) : Decidable t.HigherRanked :=
  inferInstanceAs (Decidable (t.Everywhere fun place node => t.standsForAll place node = true))

instance (t : Phrase) : Decidable t.Nameable :=
  inferInstanceAs (Decidable (t.Everywhere fun _ node => node.isNamed = true))

/-- Nothing is replaced in a type without `Self`. -/
theorem Nameable.selfFree {t : Phrase} (h : t.Nameable) : t.SelfFree := by
  intro place node hnode
  have hnamed := h place node hnode
  unfold isBareSelf
  split
  · simpa [isNamed, Token.isSelf] using hnamed
  · rfl

/-! ### Binders that are looked at -/

/-- Whether the parameters of a binder declare a lifetime other than `'static`. -/
def declaresLifetime : Phrase → Bool
  | seq params => params.any fun
    | seq (seq (_ :: lifetime t :: _) :: _) => t.word != .lifetime "static"
    | _ => false
  | _ => false

/-- Whether a binder in a row declares a lifetime other than `'static`. -/
def anyBinds (o : Opening) : List Phrase → Bool
  | [] => false
  | p :: rest => o == .bracket && p.declaresLifetime || anyBinds (o.after p) rest

/-- Whether a phrase is looked into and a binder among its parts declares a lifetime. -/
def bindsOpenly (p : Phrase) : Bool := !p.isClosed && anyBinds .closed p.parts

/-- No binder that the search for offences looks at declares a lifetime. -/
def BinderFree (t : Phrase) : Prop :=
  t.Everywhere fun place node => (t.isOpen place && node.bindsOpenly) = false

instance (t : Phrase) : Decidable t.BinderFree :=
  inferInstanceAs
    (Decidable (t.Everywhere fun place node => (t.isOpen place && node.bindsOpenly) = false))

/-- Parameters that declare a lifetime by a name declare one. -/
theorem declaresLifetime_of_declares {x : String} (hx : x ≠ "static") {p : Phrase}
    (h : declares x p = true) : p.declaresLifetime = true := by
  unfold declares at h
  split at h
  · rename_i params
    obtain ⟨param, hparam, h⟩ := List.any_eq_true.mp h
    refine List.any_eq_true.mpr ⟨param, hparam, ?_⟩
    unfold declaresOne at h
    split at h
    · rename_i t rest comma
      have ht : t.word = .lifetime x := by simpa using h
      simp [ht, hx]
    · cases h
  · cases h

/-- A lifetime that is bound at a part of a row is bound before, or a binder of the row declares it.
-/
theorem anyBinds_of_isBoundIn {x : String} (hx : x ≠ "static") {bound : Bool} {o : Opening}
    {ps : List Phrase} {i : Nat} (h : isBoundIn x bound o ps i = true) :
    bound = true ∨ anyBinds o ps = true := by
  have hfrom {bound : Bool} {o : Opening} {p : Phrase} (h : boundFrom x false bound o p = true) :
      bound = true ∨ o = .bracket ∧ p.declaresLifetime = true := by
    unfold boundFrom at h
    split at h
    · rw [Bool.or_eq_true] at h
      exact h.imp_right fun h => ⟨rfl, declaresLifetime_of_declares hx h⟩
    · cases h
    · exact Or.inl h
  -- The row is read from its beginning: what is bound so far, and whether a bracket of a binder is
  -- open, is carried along, so both are general.
  induction ps generalizing bound o i with
  | nil => cases h
  | cons p rest ih =>
      have hstep (h : boundFrom x false bound o p = true) :
          bound = true ∨ anyBinds o (p :: rest) = true := by
        refine (hfrom h).imp_right ?_
        rintro ⟨ho, hp⟩
        simp [anyBinds, ho, hp]
      cases i with
      | zero => exact hstep h
      | succ i =>
          rcases ih h with h | h
          · exact hstep h
          · exact Or.inr (by simp [anyBinds, h])

/-- No binder of an open part is looked at in a phrase if none is in the whole. -/
theorem BinderFree.part {p q : Phrase} {i : Nat} (h : p.BinderFree) (hq : p.parts[i]? = some q)
    (hopen : p.isClosed = false) : q.BinderFree := by
  intro place node hnode
  have hpart := (everywhere_iff.mp h).2 i q hq place node hnode
  simpa only [isOpen_cons hq, hopen, Bool.not_false, Bool.true_and] using hpart

/-- A lifetime that is bound at an open place is declared by a binder that is looked at. -/
theorem BinderFree.not_isBoundAt {p node : Phrase} (h : p.BinderFree) {x : String}
    (hx : x ≠ "static") {place : List Nat} (hnode : p.node? place = some node)
    (hopen : p.isOpen place = true) : p.isBoundAt x place = false := by
  induction place generalizing p with
  | nil => rfl
  | cons i place ih =>
      obtain ⟨q, hq, hnode⟩ := node?_cons_eq_some_iff.mp hnode
      rw [isOpen_cons hq, Bool.and_eq_true, Bool.not_eq_true'] at hopen
      have hrow : anyBinds .closed p.parts = false := by
        have hself := h [] p rfl
        simpa [isOpen, bindsOpenly, hopen.1] using hself
      have hpart : isBoundIn x false .closed p.parts i = false := by
        refine Bool.eq_false_iff.mpr fun hbound => ?_
        rcases anyBinds_of_isBoundIn hx hbound with hbound | hbound
        · cases hbound
        · rw [hrow] at hbound
          cases hbound
      simp [isBoundAt, hpart, hq, ih (h.part hq hopen.1) hnode hopen.2]

/-! ### Offences of such types -/

/-- A node that is looked at has no offences if the whole has none. -/
theorem offences_of_open {forbidSelf : Bool} {p node : Phrase} {place : List Nat}
    (h : offences forbidSelf p = []) (hnode : p.node? place = some node)
    (hopen : p.isOpen place = true) : offences forbidSelf node = [] := by
  induction place generalizing p with
  | nil =>
      obtain rfl := Option.some.inj hnode
      exact h
  | cons i place ih =>
      obtain ⟨q, hq, hnode⟩ := node?_cons_eq_some_iff.mp hnode
      rw [isOpen_cons hq, Bool.and_eq_true, Bool.not_eq_true'] at hopen
      rw [offences_eq, List.append_eq_nil_iff, hopen.1, if_neg Bool.false_ne_true,
        List.flatMap_eq_nil_iff] at h
      exact ih (h.2 (q, i) (mem_reading_iff.mpr hq)) hnode hopen.2

/-- Parameters without offences declare no lifetime but `'static`. -/
theorem declaresLifetime_eq_false {forbidSelf : Bool} {p : Phrase}
    (h : offences forbidSelf p = []) : p.declaresLifetime = false := by
  unfold declaresLifetime
  split
  · rename_i params
    refine List.any_eq_false.mpr fun param hparam => ?_
    have hclean := offences_of_mem (by rwa [offences] at h) hparam
    split
    · simp only [offences, allOffences, List.append_eq_nil_iff] at hclean
      have hstatic := hclean.1.2.1
      unfold lifetimeOffence at hstatic
      split at hstatic
      · simp_all
      · cases hstatic
    · exact Bool.false_ne_true
  · rfl

/-- Phrases without offences have no binder in a row that declares a lifetime. -/
theorem anyBinds_eq_false {forbidSelf : Bool} {o : Opening} {ps : List Phrase}
    (h : ∀ p ∈ ps, offences forbidSelf p = []) : anyBinds o ps = false := by
  induction ps generalizing o with
  | nil => rfl
  | cons p rest ih =>
      have hp := declaresLifetime_eq_false (h p List.mem_cons_self)
      have hrest := ih (o := o.after p) fun q hq => h q (List.mem_cons_of_mem p hq)
      simp [anyBinds, hp, hrest]

/-- A type without offences has no binder that is looked at. -/
theorem binderFree_of_offences {forbidSelf : Bool} {t : Phrase}
    (h : offences forbidSelf t = []) : t.BinderFree := by
  intro place node hnode
  cases hopen : t.isOpen place with
  | false => rfl
  | true =>
      rw [Bool.true_and, bindsOpenly]
      cases hclosed : node.isClosed with
      | true => rfl
      | false =>
          have hclean := offences_of_open h hnode hopen
          rw [offences_eq, List.append_eq_nil_iff, hclosed, if_neg Bool.false_ne_true,
            List.flatMap_eq_nil_iff] at hclean
          have hparts : ∀ p ∈ node.parts, offences forbidSelf p = [] := by
            intro p hp
            obtain ⟨i, hi⟩ := List.getElem?_of_mem hp
            exact hclean.2 (p, i) (mem_reading_iff.mpr hi)
          rw [Bool.not_false, Bool.true_and]
          exact anyBinds_eq_false hparts

/-- What is reported of a type with names, all of whose lifetimes stand for all lifetimes, is a
lifetime that a binder of the type declares. -/
theorem HigherRanked.offendsAt {forbidSelf : Bool} {t : Phrase} (h : t.HigherRanked)
    (hnamed : t.Nameable) {place : List Nat} {d : Diagnostic}
    (hd : t.OffendsAt forbidSelf place d) :
    ∃ x span, t.node? place = some (lifetime ⟨.lifetime x, span⟩) ∧ x ≠ "static" ∧
      t.isBoundAt x place = true ∧ d = Refusal.borrowed.at_ [.leaf ⟨.lifetime x, span⟩] := by
  obtain ⟨node, hnode, hopen, hreport⟩ := hd
  obtain ⟨r, hr, rfl⟩ := Option.map_eq_some_iff.mp hreport
  have hall := h place node hnode
  have hname := hnamed place node hnode
  unfold refusal? at hr
  split at hr
  · cases hname
  · cases hname
  · simp [standsForAll, hopen] at hall
  · rename_i t'
    obtain ⟨word, span⟩ := t'
    split at hr
    · cases hr
    · rename_i hstatic
      obtain rfl := Option.some.inj hr
      cases word with
      | lifetime x =>
          have hx : x ≠ "static" := fun hx => hstatic (by rw [hx])
          refine ⟨x, span, hnode, hx, ?_, rfl⟩
          simpa [standsForAll, hx, hopen] using hall
      | _ => cases hall
  · rename_i leading head rest
    rw [isNamed, Bool.not_eq_true'] at hname
    simp [hname] at hr
  · cases hr

end Phrase

namespace TypeRules

/-- A type with names, all of whose lifetimes are `'static` or stand for all lifetimes. It is
resolved as it is exactly if no binder outside of function types and the parameters of callables
declares a lifetime, and otherwise everything that is reported is a lifetime that a binder of the
type declares. -/
theorem resolve_higherRanked (rules : TypeRules) {t : Phrase} (hnamed : t.Nameable)
    (h : t.HigherRanked) :
    (rules.resolve t = .ok t ↔ t.BinderFree) ∧
      ∀ ds, rules.resolve t = .error ds → ∀ d ∈ ds, ∃ place x span,
        t.node? place = some (.lifetime ⟨.lifetime x, span⟩) ∧ x ≠ "static" ∧
          t.isBoundAt x place = true ∧ d = Refusal.borrowed.at_ [.leaf ⟨.lifetime x, span⟩] := by
  have hsame : rules.substituted t = t := by
    unfold substituted
    cases rules.self? with
    | none => rfl
    | some self => exact hnamed.selfFree.substitute_eq
  refine ⟨⟨fun hresolve => ?_, fun hfree => ?_⟩, fun ds hds d hd => ?_⟩
  · have hclean := (resolve_eq_ok_iff.mp hresolve).1
    rw [hsame] at hclean
    exact Phrase.binderFree_of_offences hclean
  · refine resolve_eq_ok_iff.mpr ⟨?_, hsame.symm⟩
    rw [hsame, List.eq_nil_iff_forall_not_mem]
    intro d hd
    obtain ⟨place, hoffends⟩ := Phrase.mem_offences_iff.mp hd
    obtain ⟨x, span, hnode, hx, hbound, -⟩ := h.offendsAt hnamed hoffends
    obtain ⟨-, -, hopen, -⟩ := hoffends
    rw [hfree.not_isBoundAt hx hnode hopen] at hbound
    cases hbound
  · obtain ⟨rfl, -⟩ := resolve_eq_error_iff.mp hds
    rw [hsame] at hd
    obtain ⟨place, hoffends⟩ := Phrase.mem_offences_iff.mp hd
    exact ⟨place, h.offendsAt hnamed hoffends⟩

/-- A callback, and a function for all lifetimes. -/
def callbacks : String := "(Box<dyn Fn(&str) -> bool>, for<'b> fn(&'b str, &'_ u8) -> &'static u8)"

/-- Lifetimes that are left out among the parameters of a callable, or that a function type
declares, are accepted. -/
theorem resolve_higherRanked_callbacks :
    ∃ t, readType? callbacks = some t ∧ t.Nameable ∧ t.HigherRanked ∧
      permissive.resolve t = .ok t := by
  have hrun : (readType? callbacks).map (fun t =>
      (decide t.Nameable, decide t.HigherRanked, decide t.BinderFree)) =
      some (true, true, true) := by
    decide +kernel
  obtain ⟨t, ht, hrun⟩ := Option.map_eq_some_iff.mp hrun
  simp only [Prod.mk.injEq, decide_eq_true_eq] at hrun
  obtain ⟨hnamed, hranked, hfree⟩ := hrun
  exact ⟨t, ht, hnamed, hranked, (resolve_higherRanked permissive hnamed hranked).1.mpr hfree⟩

/-- A callback whose lifetime is written with `for`. -/
def boundCallback : String := "Box<dyn for<'a> Fn(&'a str) -> bool>"

/-- The lifetime that a binder of a bound declares is reported as borrowed data. -/
theorem binder_of_bound_reported :
    ∃ t ds, readType? boundCallback = some t ∧ t.Nameable ∧ t.HigherRanked ∧
      permissive.resolve t = .error ds ∧
      ds.map Diagnostic.message = [Refusal.borrowed.message] := by
  have hrun : (readType? boundCallback).map (fun t =>
      (decide t.Nameable, decide t.HigherRanked, match permissive.resolve t with
        | .ok _ => []
        | .error ds => ds.map Diagnostic.message)) =
      some (true, true, [Refusal.borrowed.message]) := by
    decide +kernel
  obtain ⟨t, ht, hrun⟩ := Option.map_eq_some_iff.mp hrun
  simp only [Prod.mk.injEq, decide_eq_true_eq] at hrun
  obtain ⟨hnamed, hranked, hmessages⟩ := hrun
  split at hmessages
  · cases hmessages
  · rename_i ds hds
    exact ⟨t, ds, ht, hnamed, hranked, hds, hmessages⟩

end TypeRules

end Memoize
