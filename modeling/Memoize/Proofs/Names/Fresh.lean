import Mathlib.Data.List.Nodup
import Mathlib.Data.List.Perm.Subperm
import Memoize.Names

/-!
# Holder names

A holder name tells its base and its number (`numbered_inj`), and the name that an allocator gives
is the first that is not taken (`freshNumber_spec`). `Serves` relates an allocator to the functions
that it names, while the names that their bodies declare are taken as well. Main statement: the
names given are new and differ from each other (`Serves.not_taken`, `Serves.nodup`).

## Implementation notes

`Serves` has the names that bodies declare as a predicate, so that a scope without names of the form
of holder names can be spoken of (`Serves.zero_given`).
-/

namespace Memoize

namespace Names

/-! ### Numbered names -/

/-- The part before the first separator is told by the list, and so is the part after it. -/
theorem append_cons_inj {α : Type} {x : α} {d₁ d₂ l₁ l₂ : List α} (h₁ : x ∉ d₁) (h₂ : x ∉ d₂)
    (h : d₁ ++ x :: l₁ = d₂ ++ x :: l₂) : d₁ = d₂ ∧ l₁ = l₂ := by
  induction d₁ generalizing d₂ with
  | nil =>
      cases d₂ with
      | nil => exact ⟨rfl, (List.cons.inj h).2⟩
      | cons y d₂ => exact absurd (List.cons.inj h).1 (List.ne_of_not_mem_cons h₂)
  | cons z d₁ ih =>
      cases d₂ with
      | nil => exact absurd (List.cons.inj h).1.symm (List.ne_of_not_mem_cons h₁)
      | cons y d₂ =>
          obtain ⟨rfl, htail⟩ := List.cons.inj h
          obtain ⟨rfl, hl⟩ := ih (List.not_mem_of_not_mem_cons h₁)
            (List.not_mem_of_not_mem_cons h₂) htail
          exact ⟨rfl, hl⟩

/-- There is no underscore in a number. -/
theorem underscore_not_mem_digits (n : Nat) : '_' ∉ Nat.toDigits 10 n := by
  intro h
  exact absurd (Nat.isDigit_of_mem_toDigits (by decide) (by decide) h) (by decide)

/-- A numbered name tells its base and its number. -/
theorem numbered_inj {b b' : String} {m n : Nat} :
    numbered b m = numbered b' n ↔ b = b' ∧ m = n := by
  refine ⟨fun h => ?_, fun ⟨hb, hn⟩ => by rw [hb, hn]⟩
  have hlist : b.toList ++ '_' :: Nat.toDigits 10 m = b'.toList ++ '_' :: Nat.toDigits 10 n := by
    simpa [numbered] using congrArg String.toList h
  -- The number is what follows the last underscore, so the lists are split from their ends.
  have hreverse := congrArg List.reverse hlist
  simp only [List.reverse_append, List.reverse_cons, List.append_assoc, List.singleton_append]
    at hreverse
  obtain ⟨hdigits, hbase⟩ := append_cons_inj
    (mt List.mem_reverse.mp (underscore_not_mem_digits m))
    (mt List.mem_reverse.mp (underscore_not_mem_digits n)) hreverse
  refine ⟨String.toList_inj.mp (List.reverse_injective hbase), ?_⟩
  calc m = Nat.ofDigitChars 10 (Nat.toDigits 10 m) 0 := Nat.ofDigitChars_ten_toDigits.symm
    _ = Nat.ofDigitChars 10 (Nat.toDigits 10 n) 0 := by rw [List.reverse_injective hdigits]
    _ = n := Nat.ofDigitChars_ten_toDigits

/-- Among one more numbers than there are taken names one is free. -/
theorem exists_free (names : Names) (base : String) :
    ∃ n ∈ List.range (names.taken.length + 1), numbered base n ∉ names.taken := by
  by_contra hnone
  have hall : ∀ n ∈ List.range (names.taken.length + 1), numbered base n ∈ names.taken :=
    fun n hn => Classical.not_not.mp fun hfree => hnone ⟨n, hn, hfree⟩
  have hnodup : ((List.range (names.taken.length + 1)).map (numbered base)).Nodup :=
    List.nodup_range.map fun m n hmn => (numbered_inj.mp hmn).2
  have hsub : (List.range (names.taken.length + 1)).map (numbered base) ⊆ names.taken := by
    intro x hx
    obtain ⟨n, hn, rfl⟩ := List.mem_map.mp hx
    exact hall n hn
  have hlength := (List.subperm_of_subset hnodup hsub).length_le
  rw [List.length_map, List.length_range] at hlength
  omega

/-- The chosen number is that of a free name, and no number before it is. -/
theorem freshNumber_spec (names : Names) (base : String) :
    numbered base (names.freshNumber base) ∉ names.taken ∧
      ∀ n < names.freshNumber base, numbered base n ∈ names.taken := by
  unfold freshNumber
  cases hfind : (List.range (names.taken.length + 1)).find?
      fun n => !names.contains (numbered base n) with
  | none =>
      obtain ⟨n, hn, hfree⟩ := names.exists_free base
      have htaken := List.find?_eq_none.mp hfind n hn
      simp [contains, hfree] at htaken
  | some n =>
      obtain ⟨hfree, -, hleast⟩ := List.find?_range_eq_some.mp hfind
      simp only [contains, Bool.not_eq_true', List.contains_eq_mem, decide_eq_false_iff_not,
        Bool.not_not, decide_eq_true_eq] at hfree hleast
      exact ⟨hfree, hleast⟩

/-! ### Taken names -/

/-- Taking a name adds it to those that are taken. -/
@[simp] theorem mem_take {names : Names} {x y : String} :
    x ∈ (names.take y).taken ↔ x = y ∨ x ∈ names.taken := by
  unfold take
  split
  · rename_i h
    have hy : y ∈ names.taken := by simpa [contains] using h
    exact ⟨Or.inr, fun hx => hx.elim (fun hxy => hxy ▸ hy) id⟩
  · exact List.mem_cons

/-- Taking a name leaves the owner as it is. -/
@[simp] theorem owner_take (names : Names) (x : String) : (names.take x).owner = names.owner := by
  unfold take
  split <;> rfl

/-- Taking written names adds the names they spell. -/
@[simp] theorem mem_reserveAll {names : Names} {new : List String} {x : String} :
    x ∈ (names.reserveAll new).taken ↔ x ∈ new.map unraw ∨ x ∈ names.taken := by
  induction new generalizing names with
  | nil => simp [reserveAll]
  | cons y new ih =>
      change x ∈ ((names.reserve y).reserveAll new).taken ↔ _
      rw [ih, reserve, mem_take, List.map_cons, List.mem_cons]
      exact or_left_comm.trans or_assoc.symm

/-- Taking written names leaves the owner as it is. -/
@[simp] theorem owner_reserveAll (names : Names) (new : List String) :
    (names.reserveAll new).owner = names.owner := by
  induction new generalizing names with
  | nil => rfl
  | cons y new ih =>
      change ((names.reserve y).reserveAll new).owner = _
      rw [ih, reserve, owner_take]

/-- The names of a scope with items are those that the items declare. -/
theorem mem_ofItems {items : List Item} {x : String} :
    x ∈ (ofItems items).taken ↔ ∃ i ∈ items, x ∈ i.declares.map unraw := by
  simp only [ofItems, reserveItems, mem_reserveAll, empty, List.not_mem_nil, or_false,
    List.map_flatMap, List.mem_flatMap]

/-- The base of the names for a function depends on the owner only. -/
theorem base_congr {names names' : Names} (h : names.owner = names'.owner) :
    names.base = names'.base := by
  funext f
  simp only [base, h]

/-- Whether a name has the form of holder names. -/
def HasHolderForm (x : String) : Prop := ∃ f n, x = numbered ("__" ++ f ++ "_CACHE") n

/-- A name of the form of holder names begins with an underscore. -/
theorem HasHolderForm.head? {x : String} (h : HasHolderForm x) : x.toList.head? = some '_' := by
  obtain ⟨f, n, rfl⟩ := h
  simp [numbered]

/-- A name that begins with an underscore is spelled by itself and by its raw form. -/
theorem unraw_of_head? {x : String} (h : x.toList.head? = some '_') :
    unraw x = x ∧ unraw ("r#" ++ x) = x := by
  unfold unraw
  constructor
  · split
    · rename_i hx
      simp [hx] at h
    · rfl
  · simp

/-- The numbered names of a function have the form of holder names. -/
theorem hasHolderForm_base (names : Names) (f : String) (n : Nat) :
    HasHolderForm (numbered (names.base f) n) := by
  simp only [base]
  cases names.owner with
  | none => exact ⟨_, n, rfl⟩
  | some owner => exact ⟨owner ++ "_" ++ Text.upper (unraw f), n, by simp [String.append_assoc]⟩

/-- What the allocation of a name did: the name is the first free one, and is taken. -/
theorem allocate_eq_some {names names' : Names} {f x : String}
    (h : names.allocate f = some (x, names')) :
    x = numbered (names.base f) (names.freshNumber (names.base f)) ∧ names' = names.take x := by
  simp only [allocate] at h
  split at h
  · obtain ⟨rfl, rfl⟩ := Prod.mk.inj (Option.some.inj h)
    exact ⟨rfl, rfl⟩
  · simp at h

/-! ### Runs of an allocator -/

/-- An allocator names functions one after the other, and takes names for which `R` holds in
between. The pairs are the functions with the names given to them. -/
inductive Serves (R : String → Prop) : Names → List (String × String) → Names → Prop
  | done (names : Names) : Serves R names [] names
  | reserve {names names' : Names} {new : List String} {ps : List (String × String)}
      (h : ∀ y ∈ new, R (unraw y)) (tail : Serves R (names.reserveAll new) ps names') :
      Serves R names ps names'
  | allocate {names names' names'' : Names} {f x : String} {ps : List (String × String)}
      (h : names.allocate f = some (x, names')) (tail : Serves R names' ps names'') :
      Serves R names ((f, x) :: ps) names''

namespace Serves

variable {R : String → Prop} {names names' names'' : Names} {ps qs : List (String × String)}

/-- Two runs one after the other. -/
theorem append (h : Serves R names ps names') (h' : Serves R names' qs names'') :
    Serves R names (ps ++ qs) names'' := by
  induction h with
  | done names => exact h'
  | reserve hR tail ih => exact .reserve hR (ih h')
  | allocate ha tail ih => exact .allocate ha (ih h')

/-- The owner stays. -/
theorem owner_eq (h : Serves R names ps names') : names'.owner = names.owner := by
  induction h with
  | done names => rfl
  | reserve hnew tail ih => rw [ih, owner_reserveAll]
  | allocate ha tail ih =>
      obtain ⟨-, rfl⟩ := allocate_eq_some ha
      rw [ih, owner_take]

/-- A name that is given is none that was taken before. -/
theorem not_taken (h : Serves R names ps names') {x : String} (hx : x ∈ ps.map (·.2)) :
    x ∉ names.taken := by
  induction h with
  | done names => simp at hx
  | reserve hnew tail ih => exact fun ht => ih hx (mem_reserveAll.mpr (Or.inr ht))
  | @allocate names names' names'' f y ps ha tail ih =>
      obtain ⟨hy, rfl⟩ := allocate_eq_some ha
      rcases List.mem_cons.mp hx with rfl | hx
      · rw [hy]
        exact (names.freshNumber_spec _).1
      · exact fun ht => ih hx (mem_take.mpr (Or.inr ht))

/-- The names given differ from each other. -/
theorem nodup (h : Serves R names ps names') : (ps.map (·.2)).Nodup := by
  induction h with
  | done names => exact List.nodup_nil
  | reserve hnew tail ih => exact ih
  | @allocate names names' names'' f y ps ha tail ih =>
      obtain ⟨-, rfl⟩ := allocate_eq_some ha
      refine List.nodup_cons.mpr ⟨fun hy => ?_, ih⟩
      exact tail.not_taken hy (mem_take.mpr (Or.inl rfl))

/-- A name that is given has the base of its function. -/
theorem base_of_mem (h : Serves R names ps names') {f x : String} (hfx : (f, x) ∈ ps) :
    ∃ n, x = numbered (names.base f) n := by
  induction h with
  | done names => simp at hfx
  | reserve hnew tail ih =>
      rw [base_congr (owner_reserveAll _ _).symm]
      exact ih hfx
  | @allocate names names' names'' g y ps ha tail ih =>
      obtain ⟨hy, rfl⟩ := allocate_eq_some ha
      rcases List.mem_cons.mp hfx with heq | hmem
      · obtain ⟨rfl, rfl⟩ := Prod.mk.inj heq
        exact ⟨_, hy⟩
      · rw [base_congr (owner_take names y).symm]
        exact ih hmem

/-- If no name of a base is taken but by allocation, the first name given for the base is that with
number zero. -/
theorem zero_given (h : Serves R names ps names') {f x : String} (hfx : (f, x) ∈ ps)
    (hR : ∀ n, ¬ R (numbered (names.base f) n))
    (hfree : ∀ n, numbered (names.base f) n ∉ names.taken) :
    numbered (names.base f) 0 ∈ ps.map (·.2) := by
  induction h with
  | done names => simp at hfx
  | @reserve names names' new ps hnew tail ih =>
      have hbase := base_congr (owner_reserveAll names new)
      rw [hbase] at ih
      refine ih hfx hR fun n hn => ?_
      rcases mem_reserveAll.mp hn with hn | hn
      · obtain ⟨y, hy, hyn⟩ := List.mem_map.mp hn
        exact hR n (hyn ▸ hnew y hy)
      · exact hfree n hn
  | @allocate names names' names'' g y ps ha tail ih =>
      obtain ⟨hy, rfl⟩ := allocate_eq_some ha
      by_cases hg : names.base g = names.base f
      · have hzero : names.freshNumber (names.base f) = 0 := by
          by_contra hpos
          exact hfree 0 ((names.freshNumber_spec _).2 0 (Nat.pos_of_ne_zero hpos))
        rw [hg, hzero] at hy
        exact List.mem_cons.mpr (Or.inl hy.symm)
      · have htail : (f, x) ∈ ps := by
          rcases List.mem_cons.mp hfx with heq | hmem
          · exact absurd (congrArg names.base (Prod.mk.inj heq).1).symm hg
          · exact hmem
        have hbase := base_congr (owner_take names y)
        rw [hbase] at ih
        refine List.mem_cons_of_mem _ (ih htail hR fun n hn => ?_)
        rcases mem_take.mp hn with hn | hn
        · exact hg (numbered_inj.mp (hn.trans hy)).1.symm
        · exact hfree n hn

end Serves

end Names

end Memoize
