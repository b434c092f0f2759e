import Memoize.Proofs.Call.Reach

/-!
# Stored results of pure functions

Calls that compute a function of their key may be memoized without being noticed: whatever else a
program does, the stores of their holders hold nothing but values of the function. Main statements:
every call keeps this and answers as without memoization (`call_sound`), and it ends where the call
without memoization ends (`call_total`).
-/

namespace Memoize

variable {C H K V M : Type}

/-- The calls in `P` compute the function `f` of their holder and key: run without memoization, each
of them ends with the value of `f` and leaves the memory as it was. They call nothing outside of
`P`, and share no holder with calls outside of `P`. -/
structure Program.Computes (p : Program C H K V M) (P : C → Prop) (f : H → K → V) : Prop where
  ends : ∀ c m, P c → ∃ n, p.direct n c m = some (.value (f (p.holder c) (p.key c m)), m)
  calls : ∀ c, P c → (p.body c).CallsOnly P
  apart : ∀ c d, P c → p.holder d = p.holder c → P d

variable [DecidableEq H] [DecidableEq K]
variable {p : Program C H K V M} {fresh : H → Store K V} {P : C → Prop} {f : H → K → V}

/-- The holders of the calls in `P` hold nothing but values of `f`. -/
def Program.Sound (p : Program C H K V M) (fresh : H → Store K V) (P : C → Prop) (f : H → K → V)
    (s : Machine H K V M) : Prop :=
  ∀ c, P c → ∀ e ∈ (s.store fresh (p.holder c)).entries, e.2 = f (p.holder c) e.1

namespace Program

omit [DecidableEq H] [DecidableEq K] in
/-- How a call in `P` ends without memoization. -/
theorem Computes.direct_eq (hp : p.Computes P f) {c : C} (hc : P c) {n : Nat} {m : M}
    {r : Outcome V × M} (h : p.direct n c m = some r) :
    r = (.value (f (p.holder c) (p.key c m)), m) := by
  obtain ⟨k, hk⟩ := hp.ends c m hc
  exact p.direct_unique h hk

omit [DecidableEq K] in
/-- Nothing is stored at the start. -/
theorem sound_initial (hfresh : ∀ h, (fresh h).entries = []) (m : M) :
    p.Sound fresh P f (.initial m) := by
  intro c _ e he
  simp [hfresh] at he

omit [DecidableEq K] in
/-- Writing to the memory stores nothing. -/
theorem sound_write (s : Machine H K V M) (m : M) (hs : p.Sound fresh P f s) :
    p.Sound fresh P f { s with memory := m } := hs

/-- Asking stores nothing. -/
theorem sound_asked (c : C) (s : Machine H K V M) (hs : p.Sound fresh P f s) :
    p.Sound fresh P f (p.asked fresh c s) := by
  intro d hd e he
  rw [entries_asked] at he
  exact hs d hd e he

/-- Keeping a value of `f`, or anything for a call outside of `P`, keeps the stores sound. -/
theorem Computes.sound_kept (hp : p.Computes P f) (c : C) (k : K) (v : V) (s : Machine H K V M)
    (hv : P c → v = f (p.holder c) k) (hs : p.Sound fresh P f s) :
    p.Sound fresh P f (kept fresh (p.holder c) k v s) := by
  intro d hd e he
  by_cases hdc : p.holder d = p.holder c
  · rw [hdc, entries_kept] at he
    rcases Entries.mem_insert he with rfl | he
    · rw [hdc]
      exact hv (hp.apart d c hd hdc.symm)
    · rw [← hdc] at he
      exact hs d hd e he
  · rw [store_kept_of_ne fresh hdc] at he
    exact hs d hd e he

/-- What is found for a call in `P` is the value of `f`. -/
theorem Sound.of_found {s : Machine H K V M} (hs : p.Sound fresh P f s) {c : C} (hc : P c) {k : K}
    {v : V} (h : (s.store fresh (p.holder c)).entries.get? k = some v) : v = f (p.holder c) k :=
  hs c hc _ (Entries.mem_of_get? h)

omit [DecidableEq H] [DecidableEq K] in
/-- A computation whose calls answer as without memoization does as without memoization, and keeps
what its calls keep. Only calls that end without memoization matter. -/
theorem Computes.run_as_direct (hp : p.Computes P f) {I : Machine H K V M → Prop}
    {callee : Callee C H K V M} {n : Nat}
    (hcallee : ∀ c s o t, P c → I s → p.direct n c s.memory ≠ none → callee c s = some (o, t) →
      I t ∧ o = .value (f (p.holder c) (p.key c s.memory)) ∧ t.memory = s.memory)
    (hwrite : ∀ s m, I s → I { s with memory := m })
    (b : Computation C V M) (hb : b.CallsOnly P) (s : Machine H K V M) (hs : I s)
    {r : Outcome V × M} (hr : b.runDirect (p.direct n) s.memory = some r)
    {o : Outcome V} {t : Machine H K V M} (h : b.run callee s = some (o, t)) :
    I t ∧ r = (o, t.memory) := by
  induction b generalizing s with
  | done v =>
      obtain ⟨rfl, rfl⟩ := Prod.mk.inj (Option.some.inj h)
      exact ⟨hs, (Option.some.inj hr).symm⟩
  | panic e =>
      obtain ⟨rfl, rfl⟩ := Prod.mk.inj (Option.some.inj h)
      exact ⟨hs, (Option.some.inj hr).symm⟩
  | call c next ih =>
      simp only [Computation.run] at h
      simp only [Computation.runDirect] at hr
      cases hc : callee c s with
      | none => simp [hc] at h
      | some q =>
          cases hd : p.direct n c s.memory with
          | none => simp [hd] at hr
          | some d =>
              obtain ⟨o', u⟩ := q
              obtain ⟨hu, rfl, hmem⟩ := hcallee c s o' u hb.1 hs (by simp [hd]) hc
              rw [hp.direct_eq hb.1 hd] at hd
              rw [hc] at h
              rw [hd] at hr
              exact ih _ (hb.2 _) u hu (by rw [hmem]; exact hr) h
  | read next ih => exact ih s.memory (hb s.memory) s hs hr h
  | write m next ih => exact ih hb _ (hwrite s m hs) hr h

/-- A call that ends leaves nothing but values of `f` stored, and if it is in `P`, it ends with the
value of `f` and leaves the memory as it was. -/
theorem Computes.call_sound (hp : p.Computes P f) (n : Nat) (c : C) (s : Machine H K V M)
    (o : Outcome V) (t : Machine H K V M) (hs : p.Sound fresh P f s)
    (h : p.call fresh n c s = some (o, t)) :
    p.Sound fresh P f t ∧
      (P c → o = .value (f (p.holder c) (p.key c s.memory)) ∧ t.memory = s.memory) := by
  induction n generalizing c s o t with
  | zero => simp [call] at h
  | succ n ih =>
      have hstart : p.Sound fresh P f (p.started fresh c s) := sound_asked c s hs
      -- The calls of the body are sound by induction, so all of it is.
      have hbody : ∀ o u, (p.body c).run (p.call fresh n) (p.started fresh c s) = some (o, u) →
          p.Sound fresh P f u := fun o u =>
        run_preserves (fun d s o t _ hs hd => (ih d s o t hs hd).1) sound_write (p.body c)
          (p.body c).callsOnly_true _ hstart
      have hvalue : ∀ o u, (p.body c).run (p.call fresh n) (p.started fresh c s) = some (o, u) →
          P c → o = .value (f (p.holder c) (p.key c s.memory)) ∧ u.memory = s.memory := by
        intro o u hrun hc
        obtain ⟨k, hk⟩ := hp.ends c s.memory hc
        cases k with
        | zero => simp [direct] at hk
        | succ k =>
            have heq := hp.run_as_direct (I := p.Sound fresh P f)
              (fun d s o t hd hs _ hcall =>
                ⟨(ih d s o t hs hcall).1, (ih d s o t hs hcall).2 hd⟩)
              sound_write (p.body c) (hp.calls c hc) _ hstart hk hrun
            obtain ⟨ho, hm⟩ := Prod.mk.inj heq.2
            exact ⟨ho.symm, hm.symm⟩
      rcases p.call_cases fresh h with ⟨v, hv, rfl, rfl⟩ | ⟨-, ⟨e, hr, rfl⟩ | ⟨v, u, hr, rfl, rfl⟩⟩
      · refine ⟨sound_asked c s hs, fun hc => ⟨?_, rfl⟩⟩
        rw [hs.of_found hc hv]
      · exact ⟨hbody _ _ hr, hvalue _ _ hr⟩
      · have hu := hvalue _ _ hr
        refine ⟨hp.sound_kept c _ v u (fun hc => ?_) (hbody _ _ hr), fun hc => hu hc⟩
        exact Outcome.value.inj (hu hc).1

/-- The stores of the holders of `P` are sound in all reachable states. -/
theorem Computes.sound_of_reachable (hp : p.Computes P f) (hfresh : ∀ h, (fresh h).entries = [])
    {s : Machine H K V M} (hs : p.Reachable fresh s) : p.Sound fresh P f s :=
  hs.preserves (sound_initial hfresh) (fun n c s o t hs h => (hp.call_sound n c s o t hs h).1)
    (fun c s hs _ => sound_asked c s hs) sound_write

omit [DecidableEq H] [DecidableEq K] in
/-- A computation ends where it ends without memoization. -/
theorem Computes.run_total (hp : p.Computes P f) {I : Machine H K V M → Prop}
    {callee : Callee C H K V M} {n : Nat}
    (hcallee : ∀ c, P c → ∀ s, I s → p.direct n c s.memory ≠ none → ∃ t,
      callee c s = some (.value (f (p.holder c) (p.key c s.memory)), t) ∧ I t ∧
        t.memory = s.memory)
    (hwrite : ∀ s m, I s → I { s with memory := m })
    (b : Computation C V M) (hb : b.CallsOnly P) (s : Machine H K V M) (hs : I s)
    (hr : b.runDirect (p.direct n) s.memory ≠ none) : b.run callee s ≠ none := by
  induction b generalizing s with
  | done v => simp [Computation.run]
  | panic e => simp [Computation.run]
  | call c next ih =>
      simp only [Computation.runDirect] at hr
      simp only [Computation.run]
      cases hd : p.direct n c s.memory with
      | none => simp [hd] at hr
      | some d =>
          obtain ⟨t, hcall, ht, hmem⟩ := hcallee c hb.1 s hs (by simp [hd])
          rw [hp.direct_eq hb.1 hd] at hd
          rw [hd] at hr
          rw [hcall]
          exact ih _ (hb.2 _) t ht (by rw [hmem]; exact hr)
  | read next ih => exact ih s.memory (hb s.memory) s hs hr
  | write m next ih => exact ih hb _ (hwrite s m hs) hr

/-- A call in `P` ends at every depth at which it ends without memoization. -/
theorem Computes.call_total (hp : p.Computes P f) (n : Nat) (c : C) (hc : P c)
    (s : Machine H K V M) (hs : p.Sound fresh P f s) (hr : p.direct n c s.memory ≠ none) :
    ∃ t, p.call fresh n c s = some (.value (f (p.holder c) (p.key c s.memory)), t) ∧
      p.Sound fresh P f t ∧ t.memory = s.memory := by
  induction n generalizing c s with
  | zero => exact absurd rfl hr
  | succ n ih =>
      have hends : p.call fresh (n + 1) c s ≠ none := by
        rw [call_succ]
        cases hv : (s.store fresh (p.holder c)).entries.get? (p.key c s.memory) with
        | some v => simp
        | none =>
            simp only [ne_eq, Option.map_eq_none_iff]
            exact hp.run_total ih sound_write (p.body c) (hp.calls c hc) _ (sound_asked c s hs) hr
      obtain ⟨⟨o, t⟩, hcall⟩ := Option.ne_none_iff_exists'.mp hends
      obtain ⟨ht, hvalue⟩ := hp.call_sound (n + 1) c s o t hs hcall
      obtain ⟨rfl, hmem⟩ := hvalue hc
      exact ⟨t, hcall, ht, hmem⟩

end Program

end Memoize
