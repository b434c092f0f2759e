import Memoize.Annotation

/-!
# Functions without an annotation

Taking the annotation off a function removes one attribute: the first that asks for caching, those
before the function being read before those within it. Main statements: what is taken off
(`takeCached_eq_some_iff`), and that nothing is taken off only if no attribute asks for caching
(`takeCached_eq_none_iff`).
-/

namespace Memoize

namespace Attribute

/-- The first attribute that asks for caching is taken out of a list, and the others stay. -/
theorem takeCached_eq_some_iff {as rest : List Attribute} {a : Attribute} :
    takeCached as = some (a, rest) ↔
      ∃ before after, as = before ++ a :: after ∧ rest = before ++ after ∧ a.isCached = true ∧
        ∀ b ∈ before, b.isCached = false := by
  induction as generalizing rest with
  | nil => simp [takeCached]
  | cons b as ih =>
      by_cases hb : b.isCached = true
      · rw [takeCached, if_pos hb]
        constructor
        · intro h
          obtain ⟨rfl, rfl⟩ := Prod.mk.inj (Option.some.inj h)
          exact ⟨[], as, rfl, rfl, hb, by simp⟩
        · rintro ⟨before, after, hsplit, rfl, -, hbefore⟩
          cases before with
          | nil =>
              obtain ⟨rfl, rfl⟩ := List.cons.inj hsplit
              rfl
          | cons c before =>
              obtain ⟨rfl, -⟩ := List.cons.inj hsplit
              exact absurd hb (by simp [hbefore b List.mem_cons_self])
      · rw [takeCached, if_neg hb]
        constructor
        · intro h
          obtain ⟨⟨c, rest'⟩, htake, heq⟩ := Option.map_eq_some_iff.mp h
          obtain ⟨rfl, rfl⟩ := Prod.mk.inj heq
          obtain ⟨before, after, rfl, rfl, hc, hbefore⟩ := ih.mp htake
          refine ⟨b :: before, after, rfl, rfl, hc, ?_⟩
          intro d hd
          rcases List.mem_cons.mp hd with rfl | hd
          · exact Bool.eq_false_iff.mpr hb
          · exact hbefore d hd
        · rintro ⟨before, after, hsplit, rfl, ha, hbefore⟩
          cases before with
          | nil =>
              obtain ⟨rfl, -⟩ := List.cons.inj hsplit
              exact absurd ha hb
          | cons c before =>
              obtain ⟨rfl, rfl⟩ := List.cons.inj hsplit
              have htake := ih.mpr ⟨before, after, rfl, rfl, ha, fun d hd =>
                hbefore d (List.mem_cons_of_mem _ hd)⟩
              rw [htake]
              rfl

/-- Nothing is taken out of a list only if no attribute in it asks for caching. -/
theorem takeCached_eq_none_iff {as : List Attribute} :
    takeCached as = none ↔ ∀ a ∈ as, a.isCached = false := by
  induction as with
  | nil => simp [takeCached]
  | cons b as ih =>
      by_cases hb : b.isCached = true
      · simp [takeCached, hb]
      · simp [takeCached, hb, ih]

end Attribute

namespace Function

/-- A function without one attribute: the first that asks for caching. -/
inductive Sheds (f : Function) (a : Attribute) : Function → Prop
  | outer {before after : List Attribute} (split : f.outer = before ++ a :: after)
      (cached : a.isCached = true) (first : ∀ b ∈ before, b.isCached = false) :
      Sheds f a { f with outer := before ++ after }
  | inner {before after : List Attribute} (none_outer : ∀ b ∈ f.outer, b.isCached = false)
      (split : f.inner = before ++ a :: after) (cached : a.isCached = true)
      (first : ∀ b ∈ before, b.isCached = false) :
      Sheds f a { f with inner := before ++ after }

/-- What is taken off a function is its first attribute that asks for caching. -/
theorem takeCached_eq_some_iff {f g : Function} {a : Attribute} :
    f.takeCached = some (a, g) ↔ f.Sheds a g := by
  unfold takeCached
  constructor
  · intro h
    split at h
    · rename_i c outer htake
      obtain ⟨rfl, rfl⟩ := Prod.mk.inj (Option.some.inj h)
      obtain ⟨before, after, hsplit, rfl, hc, hfirst⟩ := Attribute.takeCached_eq_some_iff.mp htake
      exact .outer hsplit hc hfirst
    · rename_i hnone
      obtain ⟨⟨c, inner⟩, htake, heq⟩ := Option.map_eq_some_iff.mp h
      obtain ⟨rfl, rfl⟩ := Prod.mk.inj heq
      obtain ⟨before, after, hsplit, rfl, hc, hfirst⟩ := Attribute.takeCached_eq_some_iff.mp htake
      exact .inner (Attribute.takeCached_eq_none_iff.mp hnone) hsplit hc hfirst
  · intro h
    cases h with
    | outer hsplit hc hfirst =>
        rw [Attribute.takeCached_eq_some_iff.mpr ⟨_, _, hsplit, rfl, hc, hfirst⟩]
    | inner hnone hsplit hc hfirst =>
        rw [Attribute.takeCached_eq_none_iff.mpr hnone,
          Attribute.takeCached_eq_some_iff.mpr ⟨_, _, hsplit, rfl, hc, hfirst⟩]
        rfl

/-- Nothing is taken off a function only if none of its attributes asks for caching. -/
theorem takeCached_eq_none_iff {f : Function} :
    f.takeCached = none ↔ ∀ a ∈ f.attributes, a.isCached = false := by
  unfold takeCached
  split
  · rename_i a outer htake
    obtain ⟨before, after, hsplit, -, ha, -⟩ := Attribute.takeCached_eq_some_iff.mp htake
    have hmem : a ∈ f.attributes := by simp [attributes, hsplit]
    refine iff_of_false (by simp) fun hall => ?_
    simp [hall a hmem] at ha
  · rename_i hnone
    have houter := Attribute.takeCached_eq_none_iff.mp hnone
    rw [Option.map_eq_none_iff, Attribute.takeCached_eq_none_iff]
    constructor
    · intro hinner a ha
      rcases List.mem_append.mp ha with ha | ha
      · exact houter a ha
      · exact hinner a ha
    · intro hall a ha
      exact hall a (List.mem_append_right _ ha)

end Function

end Memoize
