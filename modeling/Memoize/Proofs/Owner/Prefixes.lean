import Mathlib.Data.Set.Function
import Memoize.Proofs.Scope.SiblingBlocks

/-!
# What an owner name tells

The owner name of an implementation block tells the words of its type and trait, in their order, if
no word begins with an underscore (`intercalate_double_inj`), and also if no word ends with one
(`intercalate_double_inj_of_ends`), which is the same statement read backwards. Either will do, but
the same one has to hold of both blocks. Main statement: `ofBlock_eq_iff`.
-/

namespace Memoize.OwnerName

/-! ### Words read backwards -/

/-- A word read backwards. -/
def backwards (w : String) : String := String.ofList w.toList.reverse

/-- A word is told by what it is backwards. -/
theorem backwards_inj {v w : String} (h : backwards v = backwards w) : v = w :=
  String.toList_inj.mp (List.reverse_injective (String.ofList_injective h))

/-- A doubled character is the same backwards. -/
theorem reverse_doubleChar (c : Char) : (doubleChar c).reverse = doubleChar c := by
  by_cases hc : c = '_' <;> simp [doubleChar, hc]

/-- Doubling a word and reading it backwards may be done in either order. -/
theorem toList_double_backwards (w : String) :
    (double (backwards w)).toList = (double w).toList.reverse := by
  rw [toList_double, toList_double, backwards, String.toList_ofList, List.reverse_flatMap]
  exact List.flatMap_congr fun c _ => (reverse_doubleChar c).symm

/-- Joined words backwards are the words in the other order, each of them backwards. -/
theorem reverse_joined (ws : List String) :
    '_' :: (joined ws).reverse = joined (ws.map backwards).reverse ++ ['_'] := by
  induction ws with
  | nil => rfl
  | cons w ws ih =>
      calc '_' :: (joined (w :: ws)).reverse
          = '_' :: (joined ws).reverse ++ ((double w).toList.reverse ++ ['_']) := by
            simp [joined]
        _ = joined (ws.map backwards).reverse ++ ['_'] ++ ((double w).toList.reverse ++ ['_']) := by
            rw [ih]
        _ = joined ((w :: ws).map backwards).reverse ++ ['_'] := by
            simp [joined, toList_double_backwards]

/-- Whether a word ends with something other than an underscore. -/
def PlainEnd (w : String) : Prop := ∃ first c, w.toList = first ++ [c] ∧ c ≠ '_'

/-- Such a word begins with the other thing when it is read backwards. -/
theorem PlainEnd.backwards {w : String} (h : PlainEnd w) : Plain (backwards w) := by
  obtain ⟨first, c, hw, hc⟩ := h
  refine ⟨c, first.reverse, ?_, hc⟩
  rw [OwnerName.backwards, String.toList_ofList, hw, List.reverse_concat]

/-- A word that ends with something is not empty. -/
theorem PlainEnd.ne_empty {w : String} (h : PlainEnd w) : w ≠ "" := by
  rintro rfl
  obtain ⟨first, c, hw, -⟩ := h
  simp at hw

/-- Joined words tell the words, if none of them ends with an underscore. -/
theorem intercalate_double_inj_of_ends {ws vs : List String} (hws : ∀ w ∈ ws, PlainEnd w)
    (hvs : ∀ v ∈ vs, PlainEnd v)
    (h : "_".intercalate (ws.map double) = "_".intercalate (vs.map double)) : ws = vs := by
  have hjoined : joined ws = joined vs :=
    joined_eq_of_intercalate_eq (fun w hw => (hws w hw).ne_empty)
      (fun v hv => (hvs v hv).ne_empty) h
  have hbackwards : joined (ws.map backwards).reverse = joined (vs.map backwards).reverse := by
    have hends := reverse_joined ws
    rw [hjoined, reverse_joined] at hends
    exact (List.append_cancel_right hends).symm
  have hplain : ∀ {us : List String}, (∀ u ∈ us, PlainEnd u) →
      ∀ u ∈ (us.map backwards).reverse, Plain u := by
    intro us hus u hu
    obtain ⟨v, hv, rfl⟩ := List.mem_map.mp (List.mem_reverse.mp hu)
    exact (hus v hv).backwards
  have hwords := joined_inj (hplain hws) (hplain hvs) hbackwards
  exact List.map_injective_iff.mpr (fun _ _ => backwards_inj) (List.reverse_injective hwords)

/-- It has to be the same end of the words in both lists. -/
example : "_".intercalate (["A_", "B"].map double) = "_".intercalate (["A", "_B"].map double) := by
  decide

/-! ### Owner names -/

/-- An owner name is made of the words of the block, and there is none without a word. -/
theorem ofBlock_eq (b : ImplBlock) :
    ofBlock b = if words b = [] then none else some ("_".intercalate ((words b).map double)) := by
  rw [ofBlock, spelled_eq]
  simp only [List.isEmpty_iff, List.map_eq_nil_iff]

/-- Blocks have the same owner name exactly if they have the same words, where doubling underscores
and joining words is injective on the words of the two. -/
theorem ofBlock_eq_iff_of_inj {b₁ b₂ : ImplBlock}
    (h : "_".intercalate ((words b₁).map double) = "_".intercalate ((words b₂).map double) →
      words b₁ = words b₂) :
    ofBlock b₁ = ofBlock b₂ ↔ words b₁ = words b₂ := by
  constructor
  · intro heq
    rw [ofBlock_eq, ofBlock_eq] at heq
    split_ifs at heq with h₁ h₂
    · rw [h₁, h₂]
    · exact h (Option.some.inj heq)
  · intro heq
    rw [ofBlock_eq, ofBlock_eq, heq]

/-- **The owner name tells the words.** Two implementation blocks have the same owner name exactly
if the words of their types and traits are the same, in the same order, as long as no word begins
with an underscore, or as long as no word ends with one. That is, doubling the underscores in words
and joining the words by single ones is injective on lists of such words. -/
theorem ofBlock_eq_iff (b₁ b₂ : ImplBlock)
    (h : (∀ w ∈ words b₁ ++ words b₂, Plain w) ∨ ∀ w ∈ words b₁ ++ words b₂, PlainEnd w) :
    (ofBlock b₁ = ofBlock b₂ ↔ words b₁ = words b₂) ∧
      Set.InjOn (fun ws : List String => "_".intercalate (ws.map double))
        {ws | ∀ w ∈ ws, Plain w} ∧
      Set.InjOn (fun ws : List String => "_".intercalate (ws.map double))
        {ws | ∀ w ∈ ws, PlainEnd w} := by
  have hbegins : Set.InjOn (fun ws : List String => "_".intercalate (ws.map double))
      {ws | ∀ w ∈ ws, Plain w} := fun _ hws _ hvs => intercalate_double_inj hws hvs
  have hends : Set.InjOn (fun ws : List String => "_".intercalate (ws.map double))
      {ws | ∀ w ∈ ws, PlainEnd w} := fun _ hws _ hvs => intercalate_double_inj_of_ends hws hvs
  refine ⟨ofBlock_eq_iff_of_inj fun heq => ?_, hbegins, hends⟩
  simp only [List.forall_mem_append] at h
  rcases h with ⟨h₁, h₂⟩ | ⟨h₁, h₂⟩
  · exact hbegins h₁ h₂ heq
  · exact hends h₁ h₂ heq

/-- A word with an underscore in it, and its parts as words of their own, give other owner names. -/
theorem ofBlock_eq_iff_units :
    ∃ b₁ b₂, Scope.readBlock? "impl Area<my_unit> for Circle \x7b\x7d" = some b₁ ∧
      Scope.readBlock? "impl Area<my::unit> for Circle \x7b\x7d" = some b₂ ∧
      words b₁ = ["Circle", "Area", "my_unit"] ∧ words b₂ = ["Circle", "Area", "my", "unit"] ∧
      ofBlock b₁ ≠ ofBlock b₂ := by
  have h₁ : (Scope.readBlock? "impl Area<my_unit> for Circle \x7b\x7d").map words =
      some ["Circle", "Area", "my_unit"] := by
    decide +kernel
  have h₂ : (Scope.readBlock? "impl Area<my::unit> for Circle \x7b\x7d").map words =
      some ["Circle", "Area", "my", "unit"] := by
    decide +kernel
  obtain ⟨b₁, hb₁, hw₁⟩ := Option.map_eq_some_iff.mp h₁
  obtain ⟨b₂, hb₂, hw₂⟩ := Option.map_eq_some_iff.mp h₂
  refine ⟨b₁, b₂, hb₁, hb₂, hw₁, hw₂, fun heq => ?_⟩
  have hplain : ∀ w ∈ words b₁ ++ words b₂, Plain w := by
    rw [hw₁, hw₂]
    intro w hw
    simp only [List.cons_append, List.nil_append, List.mem_cons, List.not_mem_nil, or_false] at hw
    rcases hw with rfl | rfl | rfl | rfl | rfl | rfl | rfl
    · exact ⟨'C', "ircle".toList, rfl, by decide⟩
    · exact ⟨'A', "rea".toList, rfl, by decide⟩
    · exact ⟨'m', "y_unit".toList, rfl, by decide⟩
    · exact ⟨'C', "ircle".toList, rfl, by decide⟩
    · exact ⟨'A', "rea".toList, rfl, by decide⟩
    · exact ⟨'m', "y".toList, rfl, by decide⟩
    · exact ⟨'u', "nit".toList, rfl, by decide⟩
  have hwords := (ofBlock_eq_iff b₁ b₂ (.inl hplain)).1.mp heq
  rw [hw₁, hw₂] at hwords
  exact absurd hwords (by decide)

end Memoize.OwnerName
