import Memoize.Holder

/-!
# Properties found in parts

Many properties of a stream ask whether something occurs in it: a name, a lifetime. Such a property
is found in a concatenation exactly if it is found in a part, within groups as well, and no
punctuation has it. What is printed of types, lists and keys is then read off their parts.
-/

namespace Memoize

open TokenTree Code

/-- A stream has the property exactly if one of its parts has it, within groups as well, and no
punctuation has it. -/
structure Additive (P : List TokenTree → Prop) : Prop where
  not_nil : ¬ P []
  append_iff : ∀ s t, P (s ++ t) ↔ P s ∨ P t
  group_iff : ∀ d span ts, P [.group d span ts] ↔ P ts
  not_mark : ∀ c joint span, ¬ P [.leaf ⟨.mark c joint, span⟩]

namespace Additive

variable {P : List TokenTree → Prop}

/-- A stream has the property if its head or the rest has it. -/
theorem cons_iff (hP : Additive P) (t : TokenTree) (ts : List TokenTree) :
    P (t :: ts) ↔ P [t] ∨ P ts := hP.append_iff [t] ts

/-- No sign has the property. -/
theorem not_sign (hP : Additive P) (sign : String) : ¬ P (ofSign sign) := by
  unfold ofSign
  induction sign.toList with
  | nil => exact hP.not_nil
  | cons c rest ih =>
    cases rest with
    | nil => exact hP.not_mark c false none
    | cons d rest =>
      rw [ofSign.go, hP.cons_iff]
      exact not_or.mpr ⟨hP.not_mark c true none, ih⟩

/-- Joined streams have the property if one of them has it. -/
theorem flatMap_iff {α : Type} (hP : Additive P) (f : α → List TokenTree) (as : List α) :
    P (as.flatMap f) ↔ ∃ a ∈ as, P (f a) := by
  induction as with
  | nil => simpa using hP.not_nil
  | cons a as ih => simp [hP.append_iff, ih]

/-- Tokens of a row have the property if one of them has it. -/
theorem leaves_iff (hP : Additive P) (ts : List Token) :
    P (ts.map .leaf) ↔ ∃ t ∈ ts, P [.leaf t] := by
  induction ts with
  | nil => simpa using hP.not_nil
  | cons t ts ih =>
    simp only [List.map_cons, hP.cons_iff (.leaf t) (ts.map .leaf), ih, List.mem_cons,
      exists_eq_or_imp]

/-- A tuple has the property if one of its parts has it. -/
theorem tuple_iff (hP : Additive P) (parts : List (List TokenTree)) :
    P (tuple parts) ↔ ∃ ts ∈ parts, P ts := by
  rw [tuple, parens, enclose, hP.group_iff, hP.flatMap_iff]
  simp only [hP.append_iff, hP.not_sign, or_false]

/-- Printing the lifetimes of a list first does not matter. -/
theorem arrange_iff (hP : Additive P) (ps : List Phrase) :
    P (Phrase.arrange (Phrase.rows ps)) ↔ P (Phrase.allTokens ps) := by
  have hrows : ∀ rs : List Phrase.Row, P (Phrase.arrange rs) ↔ ∃ r ∈ rs, P r.tokens := by
    intro rs
    have hcomma : ∀ b : Bool, ¬ P (if b then ofSign "," else []) := by
      intro b
      cases b
      · exact hP.not_nil
      · exact hP.not_sign ","
    simp only [Phrase.arrange, hP.append_iff, hcomma, false_or, hP.flatMap_iff, List.mem_filter]
    constructor
    · rintro (⟨r, ⟨hr, -⟩, h⟩ | ⟨r, ⟨hr, -⟩, h⟩) <;> exact ⟨r, hr, h⟩
    · rintro ⟨r, hr, h⟩
      cases hlifetime : r.isLifetime with
      | true => exact Or.inl ⟨r, ⟨hr, hlifetime⟩, h⟩
      | false => exact Or.inr ⟨r, ⟨hr, by simp [hlifetime]⟩, h⟩
  rw [hrows]
  induction ps with
  | nil => simpa [Phrase.rows] using hP.not_nil
  | cons p ps ih =>
    have hrow : ∃ r, Phrase.rows (p :: ps) = r :: Phrase.rows ps ∧ r.tokens = p.tokens := by
      cases p with
      | entry l v c =>
        rw [Phrase.rows]
        exact ⟨_, rfl, by rw [Phrase.Row.tokens, Phrase.tokens]⟩
      | _ =>
        rw [Phrase.rows]
        · exact ⟨_, rfl, List.append_nil _⟩
        · intros
          contradiction
    obtain ⟨r, hr, htokens⟩ := hrow
    simp only [hr, Phrase.allTokens_cons, hP.append_iff, ← htokens, List.mem_cons,
      exists_eq_or_imp, ih]

/-- Wrappings around a type do not matter. -/
theorem ungroup_iff (hP : Additive P) (p : Phrase) : P p.ungroup.tokens ↔ P p.tokens := by
  fun_induction Phrase.ungroup p with
  | case1 d s inner ih => rw [ih, Phrase.tokens, hP.group_iff]
  | case2 p _ => rfl

/-- A path from the root has the property if one of its names has it. -/
theorem globalPath_iff (hP : Additive P) (ns : List String) :
    P (globalPath ns) ↔ ∃ n ∈ ns, P [ofName n] := by
  rw [globalPath, hP.flatMap_iff]
  simp only [hP.append_iff, hP.not_sign, false_or]

/-- A key has the property if the type of one of its parts has it. -/
theorem keyType_iff (hP : Additive P) (params : List Param) :
    P (keyType params) ↔ ∃ p ∈ params, P (KeyPart.ofParam p).typeTokens := by
  rw [keyType, hP.tuple_iff, keyParts, List.map_map]
  constructor
  · rintro ⟨_, hts, h⟩
    obtain ⟨p, hp, rfl⟩ := List.mem_map.mp hts
    exact ⟨p, hp, h⟩
  · rintro ⟨p, hp, h⟩
    exact ⟨_, List.mem_map_of_mem hp, h⟩

end Additive

end Memoize
