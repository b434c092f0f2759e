import Memoize.Proofs.Types.Additive
import Memoize.TypeRules

/-!
# `Self` in resolved types

Where the name `Self` stays in a type after it is resolved. `Phrase.hides` finds the places that
neither the substitution nor the search for offences takes for a type: names of a length, of a macro
call, of a path that is no type, and, if what `Self` stands for is not known, those of a function
type. `Phrase.refuses` finds the places that are reported. Main statements: a resolved type has the
name exactly at a place of the first kind (`TypeRules.resolve_names`), and a place of the second
kind is reported (`TypeRules.resolve_refuses`).

## Implementation notes

The two functions read the type as it is written. Their argument `known` says whether `Self` is
replaced, and `looked` whether the search for offences looks at the place; where it does not, every
name counts that is not replaced, so `hides known false` finds all that stay.
-/

namespace Memoize

namespace TokenTree

mutual

/-- The names in a tree. -/
def idents : TokenTree → List String
  | leaf t =>
    match t.word with
    | .name n => [n]
    | _ => []
  | group _ _ body => allIdents body

/-- The names in a stream, within groups as well. -/
def allIdents : List TokenTree → List String
  | [] => []
  | t :: rest => idents t ++ allIdents rest

end

@[simp] theorem allIdents_nil : allIdents [] = [] := by simp [allIdents]

@[simp] theorem allIdents_cons (t : TokenTree) (ts : List TokenTree) :
    allIdents (t :: ts) = t.idents ++ allIdents ts := by simp [allIdents]

@[simp] theorem idents_group (d : Delimiter) (s : Option Span) (ts : List TokenTree) :
    (group d s ts).idents = allIdents ts := by simp [idents]

/-- The names in a concatenation are those in its parts. -/
@[simp] theorem allIdents_append (s t : List TokenTree) :
    allIdents (s ++ t) = allIdents s ++ allIdents t := by
  induction s with
  | nil => simp
  | cons a s ih => simp [ih]

/-- A sign has no names in it. -/
@[simp] theorem allIdents_ofSign (sign : String) : allIdents (ofSign sign) = [] := by
  unfold ofSign
  induction sign.toList with
  | nil => simp [ofSign.go]
  | cons c rest ih =>
      cases rest with
      | nil => simp [ofSign.go, idents]
      | cons d rest => simpa [ofSign.go, idents] using ih

end TokenTree

/-- Whether a token is the name `Self`. -/
def Token.isSelf (t : Token) : Bool := t.word == .name "Self"

namespace TokenTree

/-- A token has the name `Self` in it exactly if it is the name. -/
@[simp] theorem mem_idents_leaf (t : Token) : "Self" ∈ (leaf t).idents ↔ t.isSelf = true := by
  obtain ⟨word, span⟩ := t
  cases word with
  | name n =>
      simp only [idents, Token.isSelf, List.mem_singleton, beq_iff_eq, Word.name.injEq]
      exact eq_comm
  | _ => simp [idents, Token.isSelf]

/-- Tokens have the name `Self` in them exactly if one of them is the name. -/
@[simp] theorem mem_allIdents_leaves (ts : List Token) :
    "Self" ∈ allIdents (ts.map leaf) ↔ ts.any Token.isSelf = true := by
  induction ts with
  | nil => simp
  | cons t ts ih => simp [ih]

end TokenTree

open TokenTree

namespace Phrase

/-! ### Places -/

mutual

/-- Whether a phrase has a `Self` that is not replaced and that the search for offences passes over.
-/
def hides (known looked : Bool) : Phrase → Bool
  | word t => t.isSelf
  | raw ts => "Self" ∈ allIdents ts
  | lifetime t => t.isSelf
  | group _ _ parts => anyHides known looked parts
  | seq parts => anyHides known looked parts
  | named leading head rest =>
    leading.any Token.isSelf ||
      ((!looked && head.isSelf && !(known && (named leading head rest).isBareSelf)) ||
        anyHides known looked rest)
  | reference amp region mutable target =>
    amp.isSelf || (region.any Token.isSelf || (mutable.any Token.isSelf ||
      hides known looked target))
  | implTrait parts => anyHides known false parts
  | hole t => t.isSelf
  | wrapped _ _ inner => hides known looked inner
  | shielded parts => anyHides known false parts
  | receiver shown implied =>
    anyHides known looked shown ||
      ((known || !impliesPlainly shown implied) && hides known looked implied)
  | late clause between => hides known looked clause || hides known looked between
  | entry _ value comma => hides known looked value || comma.any Token.isSelf
  | lifetimesFirst entries => anyHides known looked entries

/-- Whether one of several phrases hides a `Self`. -/
def anyHides (known looked : Bool) : List Phrase → Bool
  | [] => false
  | p :: rest => hides known looked p || anyHides known looked rest

end

mutual

/-- Whether a phrase has a type by a path that begins with `Self`, is not replaced, and is looked at
by the search for offences. -/
def refuses (known : Bool) : Phrase → Bool
  | group _ _ parts => anyRefuses known parts
  | seq parts => anyRefuses known parts
  | named leading head rest =>
    (head.isSelf && !(known && (named leading head rest).isBareSelf)) || anyRefuses known rest
  | reference _ _ _ target => refuses known target
  | wrapped _ _ inner => refuses known inner
  | receiver shown implied => anyRefuses known shown || refuses known implied
  | late clause between => refuses known clause || refuses known between
  | entry _ value _ => refuses known value
  | lifetimesFirst entries => anyRefuses known entries
  | word _ | raw _ | lifetime _ | implTrait _ | hole _ | shielded _ => false

/-- Whether one of several phrases refuses a `Self`. -/
def anyRefuses (known : Bool) : List Phrase → Bool
  | [] => false
  | p :: rest => refuses known p || anyRefuses known rest

end

/-! ### Printed names -/

/-- Having a name is found in parts. -/
theorem additive_names (x : String) : Additive fun ts => x ∈ allIdents ts where
  not_nil := by simp
  append_iff s t := by simp
  group_iff d span ts := by simp
  not_mark c joint span := by simp [idents]

/-- Printing the lifetimes of a list first does not change its names. -/
theorem mem_names_arrange (x : String) (ps : List Phrase) :
    x ∈ allIdents (arrange (rows ps)) ↔ x ∈ allIdents (allTokens ps) :=
  (additive_names x).arrange_iff ps

/-- The bare name is printed as the name. -/
theorem not_isBareSelf {p : Phrase} (h : "Self" ∉ allIdents p.tokens) : p.isBareSelf = false := by
  unfold isBareSelf
  split
  · rename_i head
    simp only [tokens, List.map_nil, List.nil_append, allTokens_nil, allIdents_cons, allIdents_nil,
      List.append_nil, mem_idents_leaf, Token.isSelf] at h
    simpa using h
  · rfl

/-- The bare name is replaced as a whole. -/
theorem substitute_of_isBareSelf {self p : Phrase} (h : p.isBareSelf = true) :
    substitute self p = self := by
  cases p with
  | named leading head rest => rw [substitute, if_pos h]
  | _ => cases h

/-- A phrase that is not the bare name does not become it. -/
theorem isBareSelf_substitute_of_not {self p : Phrase} (h : p.isBareSelf = false) :
    (substitute self p).isBareSelf = false := by
  cases p with
  | named leading head rest =>
      rw [substitute, if_neg (by simp [h])]
      cases rest with
      | nil => simpa [substituteAll] using h
      | cons p ps => cases leading <;> simp [substituteAll, isBareSelf]
  | _ => simp [substitute, isBareSelf]

/-- A phrase is not the bare name after the name is replaced. -/
theorem isBareSelf_substitute {self : Phrase} (hself : "Self" ∉ allIdents self.tokens)
    (p : Phrase) : (substitute self p).isBareSelf = false := by
  cases hbare : p.isBareSelf with
  | true =>
      rw [substitute_of_isBareSelf hbare]
      exact not_isBareSelf hself
  | false => exact isBareSelf_substitute_of_not hbare

/-- A receiver is printed with its type after the name is replaced. -/
theorem impliesPlainly_substitute {self : Phrase} (hself : "Self" ∉ allIdents self.tokens)
    (shown : List Phrase) (p : Phrase) : impliesPlainly shown (substitute self p) = false := by
  unfold impliesPlainly
  have hbare := isBareSelf_substitute hself p
  split
  · rename_i amp region mutable target heq
    have htarget : target.isBareSelf = false := by
      cases p with
      | reference a r m t =>
          rw [substitute] at heq
          cases heq
          exact isBareSelf_substitute hself t
      | named leading head rest =>
          rw [substitute] at heq
          split at heq
          · subst heq
            simp [tokens] at hself
            exact not_isBareSelf hself.2.2.2
          · cases heq
      | _ => simp [substitute] at heq
    simp [htarget]
  · simp [hbare]

mutual

/-- A phrase has the name exactly if some part shows it. -/
theorem mem_names_iff (p : Phrase) : "Self" ∈ allIdents p.tokens ↔ hides false false p = true := by
  cases p with
  | word t => simp [tokens, hides]
  | raw ts => simp [tokens, hides]
  | lifetime t => simp [tokens, hides]
  | group d s parts => simpa [tokens, hides] using mem_allIdents_iff parts
  | seq parts => simpa [tokens, hides] using mem_allIdents_iff parts
  | named leading head rest => simp [tokens, hides, mem_allIdents_iff rest]
  | reference amp region mutable target =>
      simp [tokens, hides, mem_names_iff target, Option.any_eq_true]
  | implTrait parts => simpa [tokens, hides] using mem_allIdents_iff parts
  | hole t => simp [tokens, hides]
  | wrapped d s inner => simpa [tokens, hides] using mem_names_iff inner
  | shielded parts => simpa [tokens, hides] using mem_allIdents_iff parts
  | receiver shown implied =>
      cases hplain : impliesPlainly shown implied <;>
        simp [tokens, hides, hplain, mem_allIdents_iff shown, mem_names_iff implied]
  | late clause between =>
      simp [tokens, hides, mem_names_iff clause, mem_names_iff between, or_comm]
  | entry l value comma => simp [tokens, hides, mem_names_iff value, Option.any_eq_true]
  | lifetimesFirst entries => simp [tokens, hides, mem_names_arrange, mem_allIdents_iff entries]

/-- Phrases have the name exactly if some part of one shows it. -/
theorem mem_allIdents_iff (ps : List Phrase) :
    "Self" ∈ allIdents (allTokens ps) ↔ anyHides false false ps = true := by
  cases ps with
  | nil => simp [anyHides]
  | cons p rest => simp [anyHides, mem_names_iff p, mem_allIdents_iff rest]

end

mutual

/-- A phrase in which the bare name is replaced has the name exactly if some other part shows it. -/
theorem mem_names_substitute_iff {self : Phrase} (hself : "Self" ∉ allIdents self.tokens)
    (p : Phrase) :
    "Self" ∈ allIdents (substitute self p).tokens ↔ hides true false p = true := by
  cases p with
  | word t => simp [substitute, tokens, hides]
  | raw ts => simp [substitute, tokens, hides]
  | lifetime t => simp [substitute, tokens, hides]
  | group d s parts =>
      simpa [substitute, tokens, hides] using mem_allIdents_substitute_iff hself parts
  | seq parts => simpa [substitute, tokens, hides] using mem_allIdents_substitute_iff hself parts
  | named leading head rest =>
      by_cases hbare : (named leading head rest).isBareSelf = true
      · obtain ⟨rfl, rfl⟩ : leading = [] ∧ rest = [] := by
          cases leading <;> cases rest <;> simp [isBareSelf] at hbare ⊢
        simp [substitute, hides, hbare, anyHides, hself]
      · simp [substitute, tokens, hides, hbare, mem_allIdents_substitute_iff hself rest]
  | reference amp region mutable target =>
      simp [substitute, tokens, hides, mem_names_substitute_iff hself target, Option.any_eq_true]
  | implTrait parts =>
      simpa [substitute, tokens, hides] using mem_allIdents_substitute_iff hself parts
  | hole t => simp [substitute, tokens, hides]
  | wrapped d s inner =>
      simpa [substitute, tokens, hides] using mem_names_substitute_iff hself inner
  | shielded parts =>
      simpa [substitute, tokens, hides] using mem_allIdents_substitute_iff hself parts
  | receiver shown implied =>
      simp [substitute, tokens, hides, impliesPlainly_substitute hself,
        mem_allIdents_substitute_iff hself shown, mem_names_substitute_iff hself implied]
  | late clause between =>
      simp [substitute, tokens, hides, mem_names_substitute_iff hself clause,
        mem_names_substitute_iff hself between, or_comm]
  | entry l value comma => 
      simp [substitute, tokens, hides, mem_names_substitute_iff hself value, Option.any_eq_true]
  | lifetimesFirst entries =>
      simp [substitute, tokens, hides, mem_names_arrange,
        mem_allIdents_substitute_iff hself entries]

/-- Phrases in which the bare name is replaced have the name exactly if some other part shows it. -/
theorem mem_allIdents_substitute_iff {self : Phrase} (hself : "Self" ∉ allIdents self.tokens)
    (ps : List Phrase) :
    "Self" ∈ allIdents (allTokens (substituteAll self ps)) ↔ anyHides true false ps = true := by
  cases ps with
  | nil => simp [substituteAll, anyHides]
  | cons p rest =>
      simp [substituteAll, anyHides, mem_names_substitute_iff hself p,
        mem_allIdents_substitute_iff hself rest]

end

/-! ### Places that are reported -/

mutual

/-- A name that the search for offences passes over is shown. -/
theorem hides_false_of_hides {known : Bool} (p : Phrase) (h : hides known true p = true) :
    hides known false p = true := by
  cases p with
  | word t => exact h
  | raw ts => exact h
  | lifetime t => exact h
  | group d s parts => exact anyHides_false_of_anyHides parts h
  | seq parts => exact anyHides_false_of_anyHides parts h
  | named leading head rest =>
      simp only [hides, Bool.or_eq_true, Bool.not_true, Bool.false_and, Bool.false_eq_true,
        false_or] at h ⊢
      exact h.imp_right fun hrest => Or.inr (anyHides_false_of_anyHides rest hrest)
  | reference amp region mutable target =>
      simp only [hides, Bool.or_eq_true] at h ⊢
      exact h.imp_right (Or.imp_right (Or.imp_right (hides_false_of_hides target)))
  | implTrait parts => exact h
  | hole t => exact h
  | wrapped d s inner => exact hides_false_of_hides inner h
  | shielded parts => exact h
  | receiver shown implied =>
      simp only [hides, Bool.or_eq_true, Bool.and_eq_true] at h ⊢
      exact h.imp (anyHides_false_of_anyHides shown)
        (And.imp_right (hides_false_of_hides implied))
  | late clause between =>
      simp only [hides, Bool.or_eq_true] at h ⊢
      exact h.imp (hides_false_of_hides clause) (hides_false_of_hides between)
  | entry l value comma =>
      simp only [hides, Bool.or_eq_true] at h ⊢
      exact h.imp_left (hides_false_of_hides value)
  | lifetimesFirst entries => exact anyHides_false_of_anyHides entries h

/-- Names that the search for offences passes over are shown. -/
theorem anyHides_false_of_anyHides {known : Bool} (ps : List Phrase)
    (h : anyHides known true ps = true) : anyHides known false ps = true := by
  cases ps with
  | nil => exact h
  | cons p rest =>
      simp only [anyHides, Bool.or_eq_true] at h ⊢
      exact h.imp (hides_false_of_hides p) (anyHides_false_of_anyHides rest)

end

mutual

/-- A name that is shown is one that the search for offences passes over, or it is refused. -/
theorem hides_or_refuses {known : Bool} (p : Phrase) (h : hides known false p = true) :
    hides known true p = true ∨ refuses known p = true := by
  cases p with
  | word t => exact Or.inl h
  | raw ts => exact Or.inl h
  | lifetime t => exact Or.inl h
  | group d s parts => exact anyHides_or_anyRefuses parts h
  | seq parts => exact anyHides_or_anyRefuses parts h
  | named leading head rest =>
      simp only [hides, refuses, Bool.or_eq_true, Bool.not_false, Bool.true_and, Bool.not_true,
        Bool.false_and, Bool.false_eq_true, false_or] at h ⊢
      rcases h with hleading | hhead | hrest
      · exact Or.inl (Or.inl hleading)
      · exact Or.inr (Or.inl hhead)
      · exact (anyHides_or_anyRefuses rest hrest).imp Or.inr Or.inr
  | reference amp region mutable target =>
      simp only [hides, refuses, Bool.or_eq_true] at h ⊢
      rcases h with hamp | hregion | hmutable | htarget
      · exact Or.inl (Or.inl hamp)
      · exact Or.inl (Or.inr (Or.inl hregion))
      · exact Or.inl (Or.inr (Or.inr (Or.inl hmutable)))
      · exact (hides_or_refuses target htarget).imp_left fun ht => Or.inr (Or.inr (Or.inr ht))
  | implTrait parts => exact Or.inl h
  | hole t => exact Or.inl h
  | wrapped d s inner => exact hides_or_refuses inner h
  | shielded parts => exact Or.inl h
  | receiver shown implied =>
      simp only [hides, refuses, Bool.or_eq_true, Bool.and_eq_true] at h ⊢
      rcases h with hshown | ⟨hprinted, himplied⟩
      · exact (anyHides_or_anyRefuses shown hshown).imp Or.inl Or.inl
      · exact (hides_or_refuses implied himplied).imp (fun hi => Or.inr ⟨hprinted, hi⟩) Or.inr
  | late clause between =>
      simp only [hides, refuses, Bool.or_eq_true] at h ⊢
      rcases h with hclause | hbetween
      · exact (hides_or_refuses clause hclause).imp Or.inl Or.inl
      · exact (hides_or_refuses between hbetween).imp Or.inr Or.inr
  | entry l value comma =>
      simp only [hides, refuses, Bool.or_eq_true] at h ⊢
      rcases h with hvalue | hcomma
      · exact (hides_or_refuses value hvalue).imp_left Or.inl
      · exact Or.inl (Or.inr hcomma)
  | lifetimesFirst entries => exact anyHides_or_anyRefuses entries h

/-- Names that are shown are passed over or refused. -/
theorem anyHides_or_anyRefuses {known : Bool} (ps : List Phrase)
    (h : anyHides known false ps = true) :
    anyHides known true ps = true ∨ anyRefuses known ps = true := by
  cases ps with
  | nil => exact Or.inl h
  | cons p rest =>
      simp only [anyHides, anyRefuses, Bool.or_eq_true] at h ⊢
      rcases h with hp | hrest
      · exact (hides_or_refuses p hp).imp Or.inl Or.inl
      · exact (anyHides_or_anyRefuses rest hrest).imp Or.inr Or.inr

end

/-- The report of a type by a path that begins with `Self`. -/
def ReportsSelf (d : Diagnostic) : Prop :=
  ∃ leading head rest, head.isSelf = true ∧
    d = Refusal.selfType.at_ (named leading head rest).tokens

mutual

/-- A refused name is reported. -/
theorem offences_of_refuses (p : Phrase) (h : refuses false p = true) :
    ∃ d ∈ offences true p, ReportsSelf d := by
  cases p with
  | word t => cases h
  | raw ts => cases h
  | lifetime t => cases h
  | group d s parts => exact allOffences_of_anyRefuses parts h
  | seq parts => exact allOffences_of_anyRefuses parts h
  | named leading head rest =>
      simp only [refuses, Bool.or_eq_true, Bool.false_and, Bool.not_false, Bool.and_true] at h
      rcases h with hhead | hrest
      · refine ⟨_, ?_, leading, head, rest, hhead, rfl⟩
        rw [Token.isSelf] at hhead
        simp [offences, hhead]
      · obtain ⟨d, hd, hreport⟩ := allOffences_of_anyRefuses rest hrest
        exact ⟨d, by rw [offences]; exact List.mem_append_right _ hd, hreport⟩
  | reference amp region mutable target =>
      obtain ⟨d, hd, hreport⟩ := offences_of_refuses target h
      refine ⟨d, ?_, hreport⟩
      cases region with
      | none => exact List.mem_append_right _ hd
      | some t => exact List.mem_append_right _ hd
  | implTrait parts => cases h
  | hole t => cases h
  | wrapped d s inner => exact offences_of_refuses inner h
  | shielded parts => cases h
  | receiver shown implied =>
      simp only [refuses, Bool.or_eq_true] at h
      rcases h with hshown | himplied
      · obtain ⟨d, hd, hreport⟩ := allOffences_of_anyRefuses shown hshown
        exact ⟨d, by rw [offences]; exact List.mem_append_left _ hd, hreport⟩
      · obtain ⟨d, hd, hreport⟩ := offences_of_refuses implied himplied
        exact ⟨d, by rw [offences]; exact List.mem_append_right _ hd, hreport⟩
  | late clause between =>
      simp only [refuses, Bool.or_eq_true] at h
      rcases h with hclause | hbetween
      · obtain ⟨d, hd, hreport⟩ := offences_of_refuses clause hclause
        exact ⟨d, by rw [offences]; exact List.mem_append_left _ hd, hreport⟩
      · obtain ⟨d, hd, hreport⟩ := offences_of_refuses between hbetween
        exact ⟨d, by rw [offences]; exact List.mem_append_right _ hd, hreport⟩
  | entry l value comma => exact offences_of_refuses value h
  | lifetimesFirst entries => exact allOffences_of_anyRefuses entries h

/-- Refused names are reported. -/
theorem allOffences_of_anyRefuses (ps : List Phrase) (h : anyRefuses false ps = true) :
    ∃ d ∈ allOffences true ps, ReportsSelf d := by
  cases ps with
  | nil => cases h
  | cons p rest =>
      simp only [anyRefuses, Bool.or_eq_true] at h
      rw [allOffences]
      rcases h with hp | hrest
      · obtain ⟨d, hd, hreport⟩ := offences_of_refuses p hp
        exact ⟨d, List.mem_append_left _ hd, hreport⟩
      · obtain ⟨d, hd, hreport⟩ := allOffences_of_anyRefuses rest hrest
        exact ⟨d, List.mem_append_right _ hd, hreport⟩

end

mutual

/-- What is refused although the bare name is replaced, is refused after it is replaced. -/
theorem refuses_substitute (self : Phrase) (p : Phrase) (h : refuses true p = true) :
    refuses false (substitute self p) = true := by
  cases p with
  | word t => cases h
  | raw ts => cases h
  | lifetime t => cases h
  | group d s parts => exact anyRefuses_substitute self parts h
  | seq parts => exact anyRefuses_substitute self parts h
  | named leading head rest =>
      have hbare : ¬ (named leading head rest).isBareSelf = true := by
        intro hbare
        obtain rfl : rest = [] := by
          cases leading <;> cases rest <;> simp [isBareSelf] at hbare ⊢
        simp [refuses, hbare, anyRefuses] at h
      rw [substitute, if_neg hbare]
      simp only [refuses, hbare, Bool.or_eq_true, Bool.and_false, Bool.not_false, Bool.and_true,
        Bool.false_and] at h ⊢
      exact h.imp_right (anyRefuses_substitute self rest)
  | reference amp region mutable target => exact refuses_substitute self target h
  | implTrait parts => cases h
  | hole t => cases h
  | wrapped d s inner => exact refuses_substitute self inner h
  | shielded parts => cases h
  | receiver shown implied =>
      simp only [substitute, refuses, Bool.or_eq_true] at h ⊢
      exact h.imp (anyRefuses_substitute self shown) (refuses_substitute self implied)
  | late clause between =>
      simp only [substitute, refuses, Bool.or_eq_true] at h ⊢
      exact h.imp (refuses_substitute self clause) (refuses_substitute self between)
  | entry l value comma => exact refuses_substitute self value h
  | lifetimesFirst entries => exact anyRefuses_substitute self entries h

/-- What is refused in phrases although the bare name is replaced, is refused after it is replaced.
-/
theorem anyRefuses_substitute (self : Phrase) (ps : List Phrase) (h : anyRefuses true ps = true) :
    anyRefuses false (substituteAll self ps) = true := by
  cases ps with
  | nil => cases h
  | cons p rest =>
      simp only [substituteAll, anyRefuses, Bool.or_eq_true] at h ⊢
      exact h.imp (refuses_substitute self p) (anyRefuses_substitute self rest)

end

end Phrase

/-! ### Resolved types -/

namespace TypeRules

variable {rules : TypeRules} {type resolved : Phrase}

/-- A type has the name after substitution exactly if some part that is not replaced shows it. -/
theorem mem_names_substituted_iff (hself : ∀ self, rules.self? = some self →
    "Self" ∉ allIdents self.tokens) :
    "Self" ∈ allIdents (rules.substituted type).tokens ↔
      Phrase.hides rules.self?.isSome false type = true := by
  unfold substituted
  cases hrules : rules.self? with
  | none => exact Phrase.mem_names_iff type
  | some self => exact Phrase.mem_names_substitute_iff (hself self hrules) type

/-- A refused name makes the type unresolved, and it is reported. -/
theorem resolve_refuses (hforbid : rules.forbidSelf = true)
    (h : Phrase.refuses rules.self?.isSome type = true) :
    ∃ ds, rules.resolve type = .error ds ∧ ∃ d ∈ ds, Phrase.ReportsSelf d := by
  have hrefuses : Phrase.refuses false (rules.substituted type) = true := by
    unfold substituted
    cases hrules : rules.self? with
    | none => rwa [hrules] at h
    | some self =>
        rw [hrules] at h
        exact Phrase.refuses_substitute self type h
  obtain ⟨d, hd, hreport⟩ := Phrase.offences_of_refuses _ hrefuses
  refine ⟨_, ?_, d, hd, hreport⟩
  unfold resolve
  rw [hforbid]
  cases hoffences : (rules.substituted type).offences true with
  | nil => rw [hoffences] at hd; cases hd
  | cons e es => rfl

/-- A type that is resolved is the type after substitution, and it has no offence. -/
theorem resolve_eq_ok_iff :
    rules.resolve type = .ok resolved ↔
      (rules.substituted type).offences rules.forbidSelf = [] ∧
        resolved = rules.substituted type := by
  unfold resolve
  cases (rules.substituted type).offences rules.forbidSelf with
  | nil => simp [eq_comm]
  | cons d ds => simp

/-- A resolved type has the name exactly at a place that the search for offences passes over, and no
name in it is refused. -/
theorem resolve_names (hforbid : rules.forbidSelf = true) (hself : ∀ self, rules.self? = some self →
    "Self" ∉ allIdents self.tokens) (h : rules.resolve type = .ok resolved) :
    ("Self" ∈ allIdents resolved.tokens ↔ Phrase.hides rules.self?.isSome true type = true) ∧
      Phrase.refuses rules.self?.isSome type = false := by
  have hrefuses : ¬ Phrase.refuses rules.self?.isSome type = true := by
    intro hrefuses
    obtain ⟨ds, hds, -⟩ := resolve_refuses hforbid hrefuses
    rw [h] at hds
    cases hds
  obtain ⟨-, rfl⟩ := resolve_eq_ok_iff.mp h
  refine ⟨?_, Bool.eq_false_iff.mpr hrefuses⟩
  rw [mem_names_substituted_iff hself]
  constructor
  · intro hshown
    exact (Phrase.hides_or_refuses type hshown).resolve_right hrefuses
  · exact Phrase.hides_false_of_hides type

end TypeRules

end Memoize
