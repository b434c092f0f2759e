import Memoize.Text.Identifier
import Memoize.Text.Uppercase

/-!
# Upper-case forms

The upper-case form of a text is made character by character. No character but the underscore has
an underscore in its form (`underscore_mem_upperChar`), so the underscores of a text are those of
its form. The form of a name consists of characters of names (`all_isNamePart_upper`).
-/

namespace Memoize.Text

/-- The form of two texts in a row. -/
theorem upper_append (s t : String) : upper (s ++ t) = upper s ++ upper t := by
  simp [upper, String.ofList_append]

/-- The form of joined texts is joined by the form of what joins them. -/
theorem upper_intercalate (sep : String) (ws : List String) :
    upper (sep.intercalate ws) = (upper sep).intercalate (ws.map upper) := by
  induction ws with
  | nil => rfl
  | cons w rest ih =>
      cases rest with
      | nil => simp
      | cons v rest =>
          simp only [List.map_cons, String.intercalate_cons_cons, upper_append] at ih ⊢
          rw [ih]

/-- No run of letters has the underscore among its forms. -/
theorem underscore_not_on_runs :
    ∀ r ∈ Uppercase.runsTo0FFF ++ Uppercase.runsTo10FFFF,
      0x5F < r.target ∨ r.target + (r.last - r.first) < 0x5F := by
  decide +kernel

/-- No letter has a form of several letters with an underscore, or one of no letters. -/
theorem underscore_not_in_expansions :
    ∀ e ∈ Uppercase.expansions, 0x5F ∉ e.2 ∧ e.2 ≠ [] := by
  decide +kernel

/-- The underscore has one number. -/
theorem ofNat_eq_underscore {n : Nat} (h : Char.ofNat n = '_') : n = 0x5F := by
  by_cases hn : n.isValidChar
  · have htoNat : (Char.ofNat n).toNat = n := by
      rw [Char.ofNat, dif_pos hn]
      rfl
    rw [← htoNat, h]
    rfl
  · rw [Char.ofNat, dif_neg hn] at h
    exact absurd h (by decide)

/-- Below the number 128 only the underscore has an underscore for its form. -/
theorem toUpper_eq_underscore {c : Char} (hc : c.toNat < 128) (h : c.toUpper = '_') : c = '_' := by
  have hall : ∀ n < 128, (Char.ofNat n).toUpper = '_' → n = 0x5F := by decide
  rw [← Char.ofNat_toNat c] at h ⊢
  rw [hall c.toNat hc h]

/-- Only the underscore has an underscore in its form. -/
theorem underscore_mem_upperChar {c : Char} (h : '_' ∈ upperChar c) : c = '_' := by
  unfold upperChar at h
  split at h
  · rename_i hc
    exact toUpper_eq_underscore hc (List.mem_singleton.mp h).symm
  · split at h
    · rename_i letters hlookup
      obtain ⟨u, hu, hunderscore⟩ := List.mem_map.mp h
      obtain ⟨l₁, l₂, hexpansions, -⟩ := List.lookup_eq_some_iff.mp hlookup
      have hmem : (c.toNat, letters) ∈ Uppercase.expansions := by simp [hexpansions]
      rw [ofNat_eq_underscore hunderscore] at hu
      exact absurd hu (underscore_not_in_expansions _ hmem).1
    · split at h
      · rename_i u hrun
        obtain ⟨r, hr, hmap⟩ := List.exists_of_findSome?_eq_some hrun
        have hu : u = 0x5F := ofNat_eq_underscore (List.mem_singleton.mp h).symm
        have hrange := underscore_not_on_runs r hr
        simp only [Uppercase.Run.map?] at hmap
        split at hmap
        · rename_i hcond
          simp only [Bool.and_eq_true, decide_eq_true_eq] at hcond
          have htarget := Option.some.inj hmap
          omega
        · simp at hmap
      · exact (List.mem_singleton.mp h).symm

/-! ### Characters of names -/

/-- The ranges of the characters above ASCII that may stand in a name. -/
def partRanges : List (Nat × Nat) :=
  [Identifier.startToFFF, Identifier.startToFFFF, Identifier.startTo9FFF, Identifier.startTo113FF,
    Identifier.startTo1FFFF, Identifier.startTo10FFFF, Identifier.continueToFFF,
    Identifier.continueTo9FFF, Identifier.continueToFFFF, Identifier.continueTo113FF,
    Identifier.continueTo1FFFF, Identifier.continueTo10FFFF].flatten

/-- Above ASCII the characters of names are those in the ranges. -/
theorem isNamePart_iff_of_le {c : Char} (hc : 128 ≤ c.toNat) :
    isNamePart c = true ↔ ∃ q ∈ partRanges, q.1 ≤ c.toNat ∧ c.toNat ≤ q.2 := by
  have hunderscore : (c == '_') = false := by
    refine beq_false_of_ne ?_
    rintro rfl
    exact absurd hc (by decide)
  have halphanum : c.isAlphanum = false := by
    have hval : 128 ≤ c.val.toNat := hc
    have hZ : 'Z'.val.toNat = 90 := rfl
    have hz : 'z'.val.toNat = 122 := rfl
    have h9 : '9'.val.toNat = 57 := rfl
    delta Char.isAlphanum Char.isAlpha Char.isUpper Char.isLower Char.isDigit
    simp only [ge_iff_le, UInt32.le_iff_toNat_le, Bool.or_eq_false_iff, Bool.and_eq_false_iff,
      decide_eq_false_iff_not]
    omega
  simp only [isNamePart, hunderscore, halphanum, hc, decide_true, Bool.false_or, Bool.true_and,
    Identifier.startsAbove, Identifier.marksAbove, Bool.or_eq_true, inRanges_eq_true_iff,
    partRanges, List.flatten_cons, List.flatten_nil, List.append_nil, List.mem_append,
    or_and_right, exists_or, or_assoc]
  exact or_congr_right or_left_comm

/-- The ranges hold no numbers but those of characters above ASCII. -/
theorem valid_of_mem_partRanges :
    ∀ q ∈ partRanges, 128 ≤ q.1 ∧ (q.2 < 0xD800 ∨ 0xDFFF < q.1 ∧ q.2 < 0x110000) := by
  decide +kernel

/-- A number in one of the ranges is that of a character of names. -/
theorem isNamePart_ofNat {q : Nat × Nat} (hq : q ∈ partRanges) {n : Nat} (hfirst : q.1 ≤ n)
    (hlast : n ≤ q.2) : isNamePart (Char.ofNat n) = true := by
  obtain ⟨hascii, hvalid⟩ := valid_of_mem_partRanges q hq
  have hn : n.isValidChar := by
    unfold Nat.isValidChar
    omega
  have htoNat : (Char.ofNat n).toNat = n := by
    rw [Char.ofNat, dif_pos hn]
    rfl
  rw [isNamePart_iff_of_le (by omega), htoNat]
  exact ⟨q, hq, hfirst, hlast⟩

/-- Whether the forms of a run of letters lie in one range of characters of names. -/
def formsInOneRange (r : Uppercase.Run) : Bool :=
  partRanges.any fun q => Nat.ble q.1 r.target && Nat.ble (r.target + (r.last - r.first)) q.2

/-- The forms of a run of letters lie in one range of characters of names or are each one of them,
or no letter of the run is one. -/
theorem isNamePart_on_runs :
    ∀ r ∈ Uppercase.runsTo0FFF ++ Uppercase.runsTo10FFFF,
      formsInOneRange r = true ∨
        (∀ k < r.last - r.first + 1, k % r.stride = 0 →
          isNamePart (Char.ofNat (r.target + k)) = true) ∨
        ∀ q ∈ partRanges, q.2 < r.first ∨ r.last < q.1 := by
  decide +kernel

/-- Forms of several letters consist of characters of names. -/
theorem isNamePart_in_expansions :
    ∀ e ∈ Uppercase.expansions, ∀ u ∈ e.2, isNamePart (Char.ofNat u) = true := by
  decide +kernel

/-- The form of a letter on a run is a character of names if the letter is one. -/
theorem isNamePart_of_map? {r : Uppercase.Run}
    (hr : r ∈ Uppercase.runsTo0FFF ++ Uppercase.runsTo10FFFF) {c : Char} {u : Nat}
    (hc : 128 ≤ c.toNat) (hmap : r.map? c.toNat = some u) (h : isNamePart c = true) :
    isNamePart (Char.ofNat u) = true := by
  simp only [Uppercase.Run.map?] at hmap
  split at hmap
  · rename_i hcond
    simp only [Bool.and_eq_true, decide_eq_true_eq, beq_iff_eq] at hcond
    obtain ⟨⟨hfirst, hlast⟩, hstride⟩ := hcond
    obtain rfl := Option.some.inj hmap
    rcases isNamePart_on_runs r hr with hrange | hall | hnone
    · simp only [formsInOneRange, List.any_eq_true, Bool.and_eq_true, Nat.ble_eq] at hrange
      obtain ⟨q, hq, hlo, hhi⟩ := hrange
      exact isNamePart_ofNat hq (by omega) (by omega)
    · exact hall _ (by omega) hstride
    · obtain ⟨q, hq, hlo, hhi⟩ := (isNamePart_iff_of_le hc).mp h
      rcases hnone q hq with hbelow | habove
      · omega
      · omega
  · cases hmap

/-- Below the number 128 characters of names have characters of names for their forms. -/
theorem isNamePart_toUpper {c : Char} (hc : c.toNat < 128) (h : isNamePart c = true) :
    isNamePart c.toUpper = true := by
  have hall : ∀ n < 128, isNamePart (Char.ofNat n) = true →
      isNamePart (Char.ofNat n).toUpper = true := by decide +kernel
  rw [← Char.ofNat_toNat c] at h ⊢
  exact hall c.toNat hc h

/-- The form of a character of names consists of characters of names. -/
theorem isNamePart_upperChar {c : Char} (h : isNamePart c = true) :
    ∀ u ∈ upperChar c, isNamePart u = true := by
  intro u hu
  unfold upperChar at hu
  split at hu
  · rename_i hc
    rw [List.mem_singleton.mp hu]
    exact isNamePart_toUpper hc h
  · rename_i hc
    split at hu
    · rename_i letters hlookup
      obtain ⟨n, hn, rfl⟩ := List.mem_map.mp hu
      obtain ⟨l₁, l₂, hexpansions, -⟩ := List.lookup_eq_some_iff.mp hlookup
      have hmem : (c.toNat, letters) ∈ Uppercase.expansions := by simp [hexpansions]
      exact isNamePart_in_expansions _ hmem n hn
    · split at hu
      · rename_i n hrun
        obtain ⟨r, hr, hmap⟩ := List.exists_of_findSome?_eq_some hrun
        rw [List.mem_singleton.mp hu]
        exact isNamePart_of_map? hr (by omega) hmap h
      · rw [List.mem_singleton.mp hu]
        exact h

/-- The form of a text of characters of names consists of such characters. -/
theorem all_isNamePart_upper {s : String} (h : ∀ c ∈ s.toList, isNamePart c = true) :
    (upper s).toList.all isNamePart = true := by
  rw [upper, String.toList_ofList, List.all_flatMap, List.all_eq_true]
  intro c hc
  exact List.all_eq_true.mpr (isNamePart_upperChar (h c hc))

/-- Every character has a form. -/
theorem upperChar_ne_nil (c : Char) : upperChar c ≠ [] := by
  unfold upperChar
  split
  · simp
  · split
    · rename_i letters hlookup
      obtain ⟨l₁, l₂, hexpansions, -⟩ := List.lookup_eq_some_iff.mp hlookup
      have hmem : (c.toNat, letters) ∈ Uppercase.expansions := by simp [hexpansions]
      simpa using (underscore_not_in_expansions _ hmem).2
    · split <;> simp

end Memoize.Text
