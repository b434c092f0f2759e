/-!
# Stored entries

A finite map as a list of pairs in which every key occurs once. What the map holds is read off by
`get?`; one lemma for each operation says what it does to that view.
-/

namespace Memoize

/-- Keys with their values. -/
abbrev Entries (K V : Type) := List (K × V)

namespace Entries

variable {K V : Type} [DecidableEq K]

/-- The value stored for a key. -/
def get? (k : K) : Entries K V → Option V
  | [] => none
  | e :: rest => if e.1 = k then some e.2 else get? k rest

/-- Stores a value for a key, in the place of the value it had. -/
def insert (k : K) (v : V) : Entries K V → Entries K V
  | [] => [(k, v)]
  | e :: rest => if e.1 = k then (k, v) :: rest else e :: insert k v rest

/-- The keys. -/
def keys (es : Entries K V) : List K := es.map (·.1)

@[simp] theorem get?_nil (k : K) : get? k ([] : Entries K V) = none := rfl

/-- A stored value is found. -/
@[simp] theorem get?_insert_self (k : K) (v : V) (es : Entries K V) :
    get? k (insert k v es) = some v := by
  induction es with
  | nil => simp [insert, get?]
  | cons e rest ih => by_cases h : e.1 = k <;> simp [insert, get?, h, ih]

/-- Storing a value leaves the other keys alone. -/
theorem get?_insert_of_ne {k l : K} (h : l ≠ k) (v : V) (es : Entries K V) :
    get? l (insert k v es) = get? l es := by
  induction es with
  | nil => simp [insert, get?, Ne.symm h]
  | cons e rest ih =>
    by_cases hk : e.1 = k
    · simp [insert, get?, hk, Ne.symm h]
    · simp [insert, get?, hk, ih]

/-- A value that is found is stored. -/
theorem mem_of_get? {k : K} {v : V} {es : Entries K V} (h : get? k es = some v) : (k, v) ∈ es := by
  induction es with
  | nil => simp at h
  | cons e rest ih =>
    by_cases he : e.1 = k
    · simp only [get?, he, if_true, Option.some.injEq] at h
      simp [← he, ← h]
    · simp only [get?, he, if_false] at h
      exact List.mem_cons_of_mem e (ih h)

/-- What is stored after storing a value is that value or was stored before. -/
theorem mem_insert {k : K} {v : V} {es : Entries K V} {e : K × V} (h : e ∈ insert k v es) :
    e = (k, v) ∨ e ∈ es := by
  induction es with
  | nil => simpa [insert] using h
  | cons d rest ih =>
    by_cases hd : d.1 = k
    · simp only [insert, hd, if_true, List.mem_cons] at h
      exact h.imp_right (List.mem_cons_of_mem d)
    · simp only [insert, hd, if_false, List.mem_cons] at h
      rcases h with rfl | h
      · exact Or.inr List.mem_cons_self
      · exact (ih h).imp_right (List.mem_cons_of_mem d)

/-- A key is found exactly if it occurs. -/
theorem get?_eq_none_iff {k : K} {es : Entries K V} : get? k es = none ↔ k ∉ es.keys := by
  induction es with
  | nil => simp [keys]
  | cons e rest ih =>
    by_cases h : e.1 = k
    · simp [get?, keys, h]
    · simp [get?, h, ih, keys, Ne.symm h]

/-- The keys after storing a value. -/
theorem keys_insert (k : K) (v : V) (es : Entries K V) :
    (insert k v es).keys = if k ∈ es.keys then es.keys else es.keys ++ [k] := by
  induction es with
  | nil => simp [insert, keys]
  | cons e rest ih =>
    by_cases h : e.1 = k
    · simp [insert, keys, h]
    · have hk : k ≠ e.1 := fun heq => h heq.symm
      simp only [keys] at ih ⊢
      simp only [insert, h, if_false, List.map_cons, List.mem_cons, hk, false_or, ih]
      split <;> simp_all

/-- A key occurs after storing a value if it is the key of the value or occurred before. -/
theorem mem_keys_insert {k l : K} {v : V} {es : Entries K V} :
    l ∈ (insert k v es).keys ↔ l = k ∨ l ∈ es.keys := by
  rw [keys_insert]
  split
  · rename_i hk
    exact ⟨Or.inr, fun h => h.elim (fun hl => hl ▸ hk) id⟩
  · simp [or_comm]

/-- Storing a value repeats no key. -/
theorem nodup_keys_insert {k : K} {v : V} {es : Entries K V} (h : es.keys.Nodup) :
    (insert k v es).keys.Nodup := by
  rw [keys_insert]
  split
  · exact h
  · rename_i hk
    simp only [List.nodup_append, List.nodup_cons, List.not_mem_nil, not_false_iff, List.nodup_nil,
      and_true, true_and, h, List.mem_singleton]
    rintro a ha b rfl rfl
    exact hk ha

end Entries

end Memoize
