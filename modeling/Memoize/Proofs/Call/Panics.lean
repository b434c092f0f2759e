import Memoize.Proofs.Call.Balance
import Memoize.Proofs.Call.Journal

/-!
# Calls that panic

A call whose body panics stores nothing itself. Main statement: it leaves exactly the results of the
calls nested in it whose bodies ended with values, whatever was stored before is still there, its
cache counts one more miss for it, and it runs again when it is called again, unless a nested call
was for its own key and ended with a value (`panic_keeps_nothing`). In that case the result of the
nested call is stored for the key (`panic_after_own_result`).
-/

namespace Memoize

variable {C H K V M : Type}

/-- Stores values for keys, one after the other. -/
def Entries.insertAll [DecidableEq K] (es : Entries K V) (new : List (K × V)) : Entries K V :=
  new.foldl (fun es e => es.insert e.1 e.2) es

/-- A value that is found after some were stored is one of them or was stored before. -/
theorem Entries.mem_of_get?_insertAll [DecidableEq K] {k : K} {v : V} {es : Entries K V}
    {new : List (K × V)} (h : (es.insertAll new).get? k = some v) :
    es.get? k = some v ∨ (k, v) ∈ new := by
  induction new generalizing es with
  | nil => exact Or.inl h
  | cons e new ih =>
    rcases ih h with h | h
    · by_cases hk : k = e.1
      · subst hk
        rw [Entries.get?_insert_self] at h
        exact Or.inr (by simp [← Option.some.inj h])
      · rw [Entries.get?_insert_of_ne hk] at h
        exact Or.inl h
    · exact Or.inr (List.mem_cons_of_mem e h)

namespace Store

/-- How many lookups found nothing, if lookups are counted: in a cache, or in one behind handles. -/
def misses? : Store K V → Option UInt64
  | counted c => some c.stats.misses
  | plain _ _ => none
  | shared s => s.misses?

variable [DecidableEq K]

/-- A lookup that finds a value is no miss. -/
theorem misses?_get_of_found {k : K} {v : V} {s : Store K V} (h : s.entries.get? k = some v) :
    (s.get k).state.misses? = s.misses? := by
  induction s with
  | counted c => simp only [get, misses?, Cache.get_of_found h, CacheStats.hit]
  | plain g es => rfl
  | shared s ih => exact ih h

/-- A lookup that finds nothing is counted. -/
theorem misses?_get_of_missing {k : K} {s : Store K V} (h : s.entries.get? k = none) :
    (s.get k).state.misses? = s.misses?.map (· + 1) := by
  induction s with
  | counted c => simp only [get, misses?, Cache.get_of_missing h, CacheStats.miss, Option.map_some]
  | plain g es => rfl
  | shared s ih => exact ih h

/-- Storing a value counts no miss. -/
theorem misses?_put (k : K) (v : V) (s : Store K V) : (s.put k v).state.misses? = s.misses? := by
  induction s with
  | counted c => rfl
  | plain g es => rfl
  | shared s ih => exact ih

end Store

namespace Program

/-- The entry that a call added to a holder: its body ran and ended with a value. -/
def addition? [DecidableEq H] (p : Program C H K V M) (h : H) (q : Visit C H K V M) :
    Option (K × V) :=
  match q.outcome with
  | .value v =>
    if q.ran = true ∧ p.holder q.call = h then some (p.key q.call q.memory, v) else none
  | .panicked _ => none

/-- The entries that the calls of a journal added to a holder, in the order in which they ended. -/
def additions [DecidableEq H] (p : Program C H K V M) (h : H) (vs : List (Visit C H K V M)) :
    List (K × V) :=
  vs.filterMap (p.addition? h)

/-- How many calls of a journal ran their bodies for a holder. -/
def runsAt [DecidableEq H] (p : Program C H K V M) (h : H) (vs : List (Visit C H K V M)) : Nat :=
  vs.countP fun q => q.ran && p.holder q.call = h

variable [DecidableEq H] [DecidableEq K] {p : Program C H K V M} {fresh : H → Store K V}

omit [DecidableEq K] in
/-- An entry was added by a call whose body ran and ended with the value. -/
theorem exists_of_mem_additions {h : H} {vs : List (Visit C H K V M)} {e : K × V}
    (he : e ∈ p.additions h vs) :
    ∃ q ∈ vs, p.placeOf q = (h, e.1) ∧ q.ran = true ∧ q.outcome = .value e.2 := by
  obtain ⟨q, hq, hadd⟩ := List.mem_filterMap.mp he
  simp only [addition?] at hadd
  cases ho : q.outcome with
  | panicked t => simp [ho] at hadd
  | value v =>
    by_cases hran : q.ran = true ∧ p.holder q.call = h
    · obtain rfl : (p.key q.call q.memory, v) = e := by simpa [ho, hran] using hadd
      exact ⟨q, hq, by rw [placeOf, place, hran.2], hran.1, ho⟩
    · simp [ho, hran] at hadd

omit [DecidableEq K] in
/-- The last call of a journal adds its entry last. -/
theorem additions_concat (h : H) (vs : List (Visit C H K V M)) (q : Visit C H K V M) :
    p.additions h (vs ++ [q]) = p.additions h vs ++ (p.addition? h q).toList := by
  simp only [additions, List.filterMap_append]
  cases hq : p.addition? h q <;> simp [hq]

/-- Calls add to the stores what their bodies ended with, and nothing else. -/
theorem additions_chronicle (h : H) : p.Chronicle fresh fun _ s vs t =>
    (t.store fresh h).entries = (s.store fresh h).entries.insertAll (p.additions h vs) where
  done _ _ := rfl
  append w s t u vs ws hst htu := by
    simp only [htu, hst, additions, List.filterMap_append, Entries.insertAll, List.foldl_append]
  write _ _ _ := rfl
  hit w c s v hv := by
    rw [entries_asked, ← List.nil_append [_], additions_concat]
    simp [additions, addition?, Entries.insertAll]
  panicked w c s e u vs hv hsu := by
    have hstart : ((p.started fresh c s).store fresh h).entries = (s.store fresh h).entries :=
      entries_asked p fresh c s h
    rw [hsu, hstart, additions_concat]
    simp [addition?]
  kept w c s v u vs hv hsu := by
    have hstart : ((p.started fresh c s).store fresh h).entries = (s.store fresh h).entries :=
      entries_asked p fresh c s h
    rw [hstart] at hsu
    rw [additions_concat]
    by_cases hh : h = p.holder c
    · subst hh
      rw [entries_kept, hsu]
      simp [addition?, Entries.insertAll]
    · rw [store_kept_of_ne fresh hh, hsu]
      simp [addition?, Ne.symm hh]

/-- A body that starts for a holder counts one miss there. -/
theorem misses_started {h : H} {c : C} {s : Machine H K V M}
    (hv : (s.store fresh (p.holder c)).entries.get? (p.key c s.memory) = none) :
    ((p.started fresh c s).store fresh h).misses? =
      (s.store fresh h).misses?.map (· + if p.holder c = h then 1 else 0) := by
  change ((p.asked fresh c s).store fresh h).misses? = _
  by_cases hh : h = p.holder c
  · subst hh
    rw [store_asked_self, Store.misses?_get_of_missing hv, if_pos rfl]
  · rw [store_asked_of_ne p fresh hh, if_neg (Ne.symm hh)]
    simp

/-- A holder that counts has counted a miss for every body that ran for it. -/
def CountsMisses (p : Program C H K V M) (fresh : H → Store K V) (h : H) (_ : List (H × K))
    (s : Machine H K V M) (vs : List (Visit C H K V M)) (t : Machine H K V M) : Prop :=
  (t.store fresh h).misses? = (s.store fresh h).misses?.map (· + .ofNat (p.runsAt h vs))

omit [DecidableEq K] in
/-- The last call of a journal counts if its body ran. -/
theorem runsAt_concat (h : H) (vs : List (Visit C H K V M)) (q : Visit C H K V M) :
    p.runsAt h (vs ++ [q]) =
      p.runsAt h vs + if q.ran = true ∧ p.holder q.call = h then 1 else 0 := by
  simp [runsAt, List.countP_append, List.countP_singleton]

/-- The misses after a body are those before it, one for its call, and those of its calls. -/
theorem CountsMisses.body {h : H} {w : List (H × K)} {c : C} {s u : Machine H K V M}
    {vs : List (Visit C H K V M)}
    (hv : (s.store fresh (p.holder c)).entries.get? (p.key c s.memory) = none)
    (hsu : p.CountsMisses fresh h w (p.started fresh c s) vs u) :
    (u.store fresh h).misses? = (s.store fresh h).misses?.map fun m =>
      m + (if p.holder c = h then 1 else 0) + .ofNat (p.runsAt h vs) := by
  rw [hsu, misses_started hv, Option.map_map]
  rfl

/-- A call whose body runs counts a miss before those of its body. -/
theorem CountsMisses.concat {h : H} {w : List (H × K)} {c : C} {s u : Machine H K V M}
    {vs : List (Visit C H K V M)} {q : Visit C H K V M}
    (hv : (s.store fresh (p.holder c)).entries.get? (p.key c s.memory) = none)
    (hsu : p.CountsMisses fresh h w (p.started fresh c s) vs u) (hq : q.call = c)
    (hran : q.ran = true) : p.CountsMisses fresh h w s (vs ++ [q]) u := by
  rw [CountsMisses, hsu.body hv, runsAt_concat, hq, UInt64.ofNat_add]
  congr 1
  funext m
  by_cases hh : p.holder c = h
  · simp [hh, hran, UInt64.add_assoc, UInt64.add_comm 1]
  · simp [hh]

/-- Calls count a miss for every body that runs. -/
theorem misses_chronicle (h : H) : p.Chronicle fresh (p.CountsMisses fresh h) where
  done w s := by simp [CountsMisses, runsAt]
  append w s t u vs ws hst htu := by
    rw [CountsMisses, htu, hst, Option.map_map]
    congr 1
    funext m
    simp only [Function.comp_apply, runsAt, List.countP_append, UInt64.ofNat_add, UInt64.add_assoc]
  write w s m := by
    change (s.store fresh h).misses? = _
    simp [runsAt]
  hit w c s v hv := by
    have hsame : ((p.asked fresh c s).store fresh h).misses? = (s.store fresh h).misses? := by
      by_cases hh : h = p.holder c
      · rw [hh, store_asked_self, Store.misses?_get_of_found hv]
      · rw [store_asked_of_ne p fresh hh]
    rw [CountsMisses, hsame]
    simp [runsAt]
  panicked w c s e u vs hv hsu := CountsMisses.concat hv hsu rfl rfl
  kept w c s v u vs hv hsu := by
    have hsame : ((Program.kept fresh (p.holder c) (p.key c s.memory) v u).store fresh h).misses? =
        (u.store fresh h).misses? := by
      by_cases hh : h = p.holder c
      · rw [hh, store_kept_self, Store.misses?_put]
      · rw [store_kept_of_ne fresh hh]
    exact hsame.trans (CountsMisses.concat hv hsu rfl rfl)

/-- A call that panics found no result. -/
theorem missing_of_panicked {n : Nat} {c : C} {s t : Machine H K V M} {e : String}
    (h : p.call fresh n c s = some (.panicked e, t)) :
    (s.store fresh (p.holder c)).entries.get? (p.key c s.memory) = none := by
  cases n with
  | zero => simp [call] at h
  | succ n =>
    rcases p.call_cases fresh h with ⟨v, -, ho, -⟩ | ⟨hv, -⟩
    · cases ho
    · exact hv

/-- A call for which there is no result runs its body. -/
theorem call_of_missing {n : Nat} {c : C} {s : Machine H K V M} {a : H × K}
    (hplace : p.place c s.memory = a) (h : ∀ v, ¬ s.Has fresh a v) :
    p.call fresh (n + 1) c s =
      ((p.body c).run (p.call fresh n) (p.started fresh c s)).map (keep fresh a.1 a.2) := by
  subst hplace
  have hmissing : (s.store fresh (p.holder c)).entries.get? (p.key c s.memory) = none :=
    Option.eq_none_iff_forall_ne_some.mpr h
  rw [call_succ, hmissing]
  rfl

/-- **A call that panics stores nothing.** There was no result for the call. The stores hold what
they held before, and what the calls nested in it added whose bodies ended with values. Where lookups
are counted, the holder of the call counts one miss for it, and every holder one for each nested call
whose body ran. Unless a nested call for the same holder and key ended with a value, there is no
result for it then, and the next call for them runs its body. -/
theorem panic_keeps_nothing {n : Nat} {c : C} {s t : Machine H K V M} {e : String}
    (h : p.call fresh n c s = some (.panicked e, t)) :
    (∀ v, ¬ s.Has fresh (p.place c s.memory) v) ∧
    (∀ i, (t.store fresh i).entries =
      (s.store fresh i).entries.insertAll (p.additions i (p.nested fresh n c s))) ∧
    (∀ a v, s.Has fresh a v → t.Has fresh a v) ∧
    (∀ a v, t.Has fresh a v → s.Has fresh a v ∨
      ∃ q ∈ p.nested fresh n c s, p.placeOf q = a ∧ q.ran = true ∧ q.outcome = .value v) ∧
    (∀ i, (t.store fresh i).misses? = (s.store fresh i).misses?.map fun m =>
      m + (if p.holder c = i then 1 else 0) + .ofNat (p.runsAt i (p.nested fresh n c s))) ∧
    ((∀ q ∈ p.nested fresh n c s, p.placeOf q = p.place c s.memory → ∀ v, q.outcome ≠ .value v) →
      (∀ v, ¬ t.Has fresh (p.place c s.memory) v) ∧
      ∀ m d k, p.place d m = p.place c s.memory →
        p.call fresh (k + 1) d { t with memory := m } =
          ((p.body d).run (p.call fresh k) (p.started fresh d { t with memory := m })).map
            (keep fresh (p.holder c) (p.key c s.memory))) := by
  have hmissing := missing_of_panicked h
  have hnone : ∀ v, ¬ s.Has fresh (p.place c s.memory) v := fun v hv =>
    absurd (hmissing.symm.trans hv) (by simp)
  have hentries : ∀ i, (t.store fresh i).entries =
      (s.store fresh i).entries.insertAll (p.additions i (p.nested fresh n c s)) := by
    intro i
    rw [(additions_chronicle i).nested h]
    exact congrArg (Entries.insertAll · _) (entries_asked p fresh c s i)
  have hnew : ∀ a v, t.Has fresh a v → s.Has fresh a v ∨
      ∃ q ∈ p.nested fresh n c s, p.placeOf q = a ∧ q.ran = true ∧ q.outcome = .value v := by
    intro a v hv
    rw [Machine.Has, hentries] at hv
    exact (Entries.mem_of_get?_insertAll hv).imp_right exists_of_mem_additions
  refine ⟨hnone, hentries, fun a v hv => ?_, hnew, fun i => ?_, fun hown => ?_⟩
  · exact ((answers_chronicle a).nested h v (has_started.mpr hv)).1
  · exact ((misses_chronicle i).nested h).body hmissing
  · have hgone : ∀ v, ¬ t.Has fresh (p.place c s.memory) v := by
      intro v hv
      rcases hnew _ v hv with hv | ⟨q, hq, hplace, -, ho⟩
      · exact hnone v hv
      · exact hown q hq hplace v ho
    exact ⟨hgone, fun m d k hplace => call_of_missing (s := { t with memory := m }) hplace hgone⟩

/-- The function of a number that panics after it has called itself with the number below. -/
def stumbling : Program Nat Unit Nat Nat Unit where
  holder _ := ()
  key n _ := n
  body
    | 0 => .done 1
    | n + 1 => .callThen n fun _ => .panic "stumbled"

/-- A call that panics because a call nested in it does. What the innermost call found is stored, one
miss is counted for each of the three calls, and the same call runs its body again. -/
theorem panic_keeps_nothing_stumbling :
    let fresh : Unit → Store Nat Nat := fun _ => .counted (.new "stumbling")
    ∃ t, stumbling.call fresh 3 2 (.initial ()) = some (.panicked "stumbled", t) ∧
      (t.store fresh ()).entries = [(0, 1)] ∧
      (t.store fresh ()).misses? = some 3 ∧
      (∀ v, ¬ t.Has fresh ((), 2) v) ∧
      stumbling.call fresh 3 2 t =
        ((stumbling.body 2).run (stumbling.call fresh 2) (stumbling.started fresh 2 t)).map
          (keep fresh () 2) := by
  intro fresh
  obtain ⟨t, hcall⟩ : ∃ t, stumbling.call fresh 3 2 (.initial ()) =
      some (.panicked "stumbled", t) := ⟨_, rfl⟩
  have hnested : stumbling.nested fresh 3 2 (.initial ()) =
      [⟨0, (), .value 1, (), true, [((), 1), ((), 2)]⟩,
        ⟨1, (), .panicked "stumbled", (), true, [((), 2)]⟩] := rfl
  obtain ⟨-, hentries, -, -, hmisses, hagain⟩ := panic_keeps_nothing hcall
  have hothers : ∀ q ∈ stumbling.nested fresh 3 2 (.initial ()),
      stumbling.placeOf q ≠ ((), 2) := by
    rw [hnested]
    decide
  obtain ⟨hgone, hruns⟩ := hagain fun q hq hplace => absurd hplace (hothers q hq)
  exact ⟨t, hcall, (hentries ()).trans rfl, (hmisses ()).trans rfl, hgone, hruns () 2 2 rfl⟩

/-- A call panics after a call of its body, for the same function without arguments, ended with one:
there was no result before, and now the next call answers one and does not run the body. -/
theorem panic_after_own_result :
    let fresh : Unit → Store Unit Nat := fun _ => .counted (.new "f")
    let p := selfCalling fun _ => .panic "panicked"
    ∃ t, p.call fresh 2 () (.initial false) = some (.panicked "panicked", t) ∧
      (∀ v, ¬ (Machine.initial false : Machine Unit Unit Nat Bool).Has fresh ((), ()) v) ∧
      t.Has fresh ((), ()) 1 ∧ p.call fresh 1 () t = some (.value 1, p.asked fresh () t) :=
  ⟨_, rfl, fun _ => nofun, rfl, rfl⟩

end Program

end Memoize
