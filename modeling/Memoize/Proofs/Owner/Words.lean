import Memoize.Proofs.Text.Uppercase
import Memoize.Scope

/-!
# Words of an owner name

An owner name joins words whose underscores are doubled. Main statement: if no word begins with an
underscore, the joined text tells the words (`intercalate_double_inj`). With such words it matters
where an underscore stands: one that is alone joins, two in a row belong to a word.
-/

namespace Memoize.OwnerName

open TokenTree

/-- The words of a token, before their underscores are doubled. -/
def plainOfWord : Word → List String
  | .name n => [unraw n]
  | .lifetime n => [unraw n]
  | .mark _ _ => []
  | .literal s => if (letters s).isEmpty then [] else [letters s]

mutual

/-- The words of a tree, before their underscores are doubled. -/
def plainOfTree : TokenTree → List String
  | .leaf t => plainOfWord t.word
  | .group _ _ body => plainOfTrees body

/-- The words of a stream, before their underscores are doubled. -/
def plainOfTrees : List TokenTree → List String
  | [] => []
  | t :: rest => plainOfTree t ++ plainOfTrees rest

end

/-- The words of an implementation block, before their underscores are doubled. -/
def words (b : ImplBlock) : List String :=
  plainOfTrees b.selfType.tokens ++ (b.trait?.map fun t => plainOfTrees t.path.tokens).getD []

/-! ### Doubled words -/

/-- A character as part of a doubled word. -/
def doubleChar (c : Char) : List Char := if c = '_' then ['_', '_'] else [c]

/-- The characters of a doubled word. -/
theorem toList_double (w : String) : (double w).toList = w.toList.flatMap doubleChar :=
  String.toList_ofList

/-- Doubling leaves letters and digits as they are. -/
theorem double_letters (literal : String) : double (letters literal) = letters literal := by
  apply String.toList_inj.mp
  rw [toList_double, letters, String.toList_ofList]
  induction literal.toList with
  | nil => rfl
  | cons c rest ih =>
      by_cases hc : c.isAlphanum
      · have hne : c ≠ '_' := by
          rintro rfl
          exact absurd hc (by decide)
        rw [List.filter_cons_of_pos hc, List.flatMap_cons, ih, doubleChar, if_neg hne]
        rfl
      · rw [List.filter_cons_of_neg hc, ih]

/-- The words of a token are doubled. -/
theorem ofWord_eq (w : Word) : ofWord w = (plainOfWord w).map double := by
  cases w with
  | name n => rfl
  | lifetime n => rfl
  | mark c joint => rfl
  | literal l =>
      simp only [ofWord, plainOfWord]
      split
      · rfl
      · rw [List.map_singleton, double_letters]

mutual

/-- The words of a tree are doubled. -/
theorem ofTree_eq (t : TokenTree) : ofTree t = (plainOfTree t).map double := by
  cases t with
  | leaf t => exact ofWord_eq t.word
  | group d span body => exact ofTrees_eq body

/-- The words of a stream are doubled. -/
theorem ofTrees_eq (ts : List TokenTree) : ofTrees ts = (plainOfTrees ts).map double := by
  cases ts with
  | nil => rfl
  | cons t rest =>
      simp only [ofTrees, plainOfTrees, List.map_append]
      rw [ofTree_eq t, ofTrees_eq rest]

end

/-- The words of a block are doubled. -/
theorem spelled_eq (b : ImplBlock) : spelled b = (words b).map double := by
  rw [spelled, words, List.map_append, ofTrees_eq]
  cases b.trait? with
  | none => rfl
  | some t => exact congrArg _ (ofTrees_eq t.path.tokens)

/-- Characters other than the underscore are not doubled. -/
theorem flatMap_doubleChar_of_not_mem {cs : List Char} (h : '_' ∉ cs) :
    cs.flatMap doubleChar = cs := by
  induction cs with
  | nil => rfl
  | cons c rest ih =>
      rw [List.flatMap_cons, doubleChar, if_neg (Ne.symm (List.ne_of_not_mem_cons h)),
        ih (List.not_mem_of_not_mem_cons h)]
      rfl

/-- Doubling a character and taking upper-case forms may be done in either order. -/
theorem upperChar_doubleChar (c : Char) :
    (doubleChar c).flatMap Text.upperChar = (Text.upperChar c).flatMap doubleChar := by
  by_cases hc : c = '_'
  · subst hc
    decide
  · rw [doubleChar, if_neg hc, List.flatMap_singleton,
      flatMap_doubleChar_of_not_mem (mt Text.underscore_mem_upperChar hc)]

/-- The upper-case form of a doubled word is the doubled form. -/
theorem upper_double (w : String) : Text.upper (double w) = double (Text.upper w) := by
  apply String.toList_inj.mp
  simp only [Text.upper, toList_double, String.toList_ofList]
  induction w.toList with
  | nil => rfl
  | cons c rest ih =>
      simp only [List.flatMap_cons, List.flatMap_append, ih, upperChar_doubleChar]

/-! ### Joined words -/

/-- Whether a word begins with something other than an underscore. -/
def Plain (w : String) : Prop := ∃ c rest, w.toList = c :: rest ∧ c ≠ '_'

/-- The upper-case form of a word begins with an underscore only if the word does. -/
theorem Plain.upper {w : String} (h : Plain w) : Plain (Text.upper w) := by
  obtain ⟨c, rest, hw, hc⟩ := h
  obtain ⟨u, us, hu⟩ := List.exists_cons_of_ne_nil (Text.upperChar_ne_nil c)
  refine ⟨u, us ++ rest.flatMap Text.upperChar, ?_, fun hunderscore => hc ?_⟩
  · rw [Text.upper, String.toList_ofList, hw, List.flatMap_cons, hu, List.cons_append]
  · apply Text.underscore_mem_upperChar
    rw [hu, hunderscore]
    exact List.mem_cons_self

/-- Whether a text after a doubled word does not go on with the word. -/
def Stops (s : List Char) : Prop := s = [] ∨ ∃ c rest, s = '_' :: c :: rest ∧ c ≠ '_'

/-- No doubled word goes on where one stops. -/
theorem Stops.ne_double {s : List Char} (hs : Stops s) (c : Char) (w r : List Char) :
    s ≠ (c :: w).flatMap doubleChar ++ r := by
  intro h
  rw [List.flatMap_cons, List.append_assoc] at h
  by_cases hc : c = '_'
  · rw [doubleChar, if_pos hc] at h
    rcases hs with rfl | ⟨d, rest, rfl, hd⟩
    · cases h
    · exact hd (List.cons.inj (List.cons.inj h).2).1
  · rw [doubleChar, if_neg hc] at h
    rcases hs with rfl | ⟨d, rest, rfl, -⟩
    · cases h
    · exact hc (List.cons.inj h).1.symm

/-- A doubled character is told by a text that begins with it. -/
theorem doubleChar_append_inj {c d : Char} {s t : List Char}
    (h : doubleChar c ++ s = doubleChar d ++ t) : c = d ∧ s = t := by
  have hhead : ∀ (a : Char) (r : List Char), (doubleChar a ++ r).head? = some a := by
    intro a r
    by_cases ha : a = '_' <;> simp [doubleChar, ha]
  have hcd := hhead c s
  rw [h, hhead d t] at hcd
  obtain rfl := Option.some.inj hcd
  exact ⟨rfl, List.append_cancel_left h⟩

/-- A doubled word is told by a text that begins with it, if the text does not go on with the
word. -/
theorem double_append_inj {v w s t : List Char} (hs : Stops s) (ht : Stops t)
    (h : v.flatMap doubleChar ++ s = w.flatMap doubleChar ++ t) : v = w ∧ s = t := by
  induction v generalizing w with
  | nil =>
      cases w with
      | nil => exact ⟨rfl, h⟩
      | cons d w => exact absurd h (hs.ne_double d w t)
  | cons c v ih =>
      cases w with
      | nil => exact absurd h.symm (ht.ne_double c v s)
      | cons d w =>
          simp only [List.flatMap_cons, List.append_assoc] at h
          obtain ⟨rfl, htail⟩ := doubleChar_append_inj h
          obtain ⟨rfl, hst⟩ := ih htail
          exact ⟨rfl, hst⟩

/-- Words after a first one, each with the underscore that joins it. -/
def joined (ws : List String) : List Char := ws.flatMap fun w => '_' :: (double w).toList

/-- What follows a word does not go on with it. -/
theorem stops_joined {ws : List String} (hws : ∀ w ∈ ws, Plain w) : Stops (joined ws) := by
  cases ws with
  | nil => exact Or.inl rfl
  | cons w rest =>
      obtain ⟨c, cs, hw, hc⟩ := hws w List.mem_cons_self
      refine Or.inr ⟨c, cs.flatMap doubleChar ++ joined rest, ?_, hc⟩
      simp only [joined, List.flatMap_cons, toList_double, hw, doubleChar, if_neg hc]
      rfl

/-- Joined words tell the words. -/
theorem joined_inj {ws vs : List String} (hws : ∀ w ∈ ws, Plain w) (hvs : ∀ v ∈ vs, Plain v)
    (h : joined ws = joined vs) : ws = vs := by
  induction ws generalizing vs with
  | nil =>
      cases vs with
      | nil => rfl
      | cons v vs => cases h
  | cons w ws ih =>
      cases vs with
      | nil => cases h
      | cons v vs =>
          have htail := (List.cons.inj h).2
          rw [toList_double, toList_double] at htail
          obtain ⟨hwv, hrest⟩ := double_append_inj
            (stops_joined fun u hu => hws u (List.mem_cons_of_mem _ hu))
            (stops_joined fun u hu => hvs u (List.mem_cons_of_mem _ hu)) htail
          rw [String.toList_inj.mp hwv, ih (fun u hu => hws u (List.mem_cons_of_mem _ hu))
            (fun u hu => hvs u (List.mem_cons_of_mem _ hu)) hrest]

/-- The characters of joined words. -/
theorem toList_intercalate_double (w : String) (ws : List String) :
    '_' :: ("_".intercalate ((w :: ws).map double)).toList = joined (w :: ws) := by
  induction ws generalizing w with
  | nil => simp [joined]
  | cons v rest ih =>
      rw [joined, List.flatMap_cons, ← joined, ← ih v]
      simp

/-- A word that is not empty stays so when it is doubled. -/
theorem toList_double_ne_nil {w : String} (hw : w ≠ "") : (double w).toList ≠ [] := by
  intro h
  rw [toList_double, List.flatMap_eq_nil_iff] at h
  apply hw
  apply String.toList_eq_nil_iff.mp
  apply List.eq_nil_iff_forall_not_mem.mpr
  intro c hc
  have hnil := h c hc
  unfold doubleChar at hnil
  split at hnil <;> cases hnil

/-- Texts that are joined from words are the same only if the words with their underscores are. -/
theorem joined_eq_of_intercalate_eq {ws vs : List String} (hws : ∀ w ∈ ws, w ≠ "")
    (hvs : ∀ v ∈ vs, v ≠ "")
    (h : "_".intercalate (ws.map double) = "_".intercalate (vs.map double)) :
    joined ws = joined vs := by
  have hempty : ∀ (w : String) (us : List String), w ≠ "" →
      "_".intercalate ((w :: us).map double) ≠ "" := by
    intro w us hw h
    have hchars := toList_intercalate_double w us
    rw [h, joined, List.flatMap_cons, List.cons_append] at hchars
    exact toList_double_ne_nil hw (List.append_eq_nil_iff.mp (List.cons.inj hchars).2.symm).1
  cases ws with
  | nil =>
      cases vs with
      | nil => rfl
      | cons v vs => exact absurd h.symm (hempty v vs (hvs v List.mem_cons_self))
  | cons w ws =>
      cases vs with
      | nil => exact absurd h (hempty w ws (hws w List.mem_cons_self))
      | cons v vs => rw [← toList_intercalate_double, h, toList_intercalate_double]

/-- A word that begins with something is not empty. -/
theorem Plain.ne_empty {w : String} (h : Plain w) : w ≠ "" := by
  rintro rfl
  obtain ⟨c, rest, hc, -⟩ := h
  cases hc

/-- Joined words tell the words, if none of them begins with an underscore. -/
theorem intercalate_double_inj {ws vs : List String} (hws : ∀ w ∈ ws, Plain w)
    (hvs : ∀ v ∈ vs, Plain v)
    (h : "_".intercalate (ws.map double) = "_".intercalate (vs.map double)) : ws = vs :=
  joined_inj hws hvs (joined_eq_of_intercalate_eq (fun w hw => (hws w hw).ne_empty)
    (fun v hv => (hvs v hv).ne_empty) h)

end Memoize.OwnerName
