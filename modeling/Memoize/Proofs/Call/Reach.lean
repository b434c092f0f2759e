import Memoize.Call.Memoized

/-!
# States of memoized calls

A run makes calls one after the other; a call passes through states of its own while its body and
the calls of the body go on. `Reachable` holds of all of these states. Main statements: what the
four moves of a call keep is kept by calls (`call_preserves`), by the states they pass through and
by runs (`Stable.of_reachable`), and a run without memoization does not depend on how deep it
may nest (`direct_mono`).

## Implementation notes

`Passes` does not ask the call to end, so the states of calls that nest without end count as well.
-/

namespace Memoize

variable {C H K V M : Type}

/-- A computation calls nothing but what `P` allows, whatever its calls answer. -/
def Computation.CallsOnly (P : C → Prop) : Computation C V M → Prop
  | done _ => True
  | panic _ => True
  | call c next => P c ∧ ∀ o, (next o).CallsOnly P
  | read next => ∀ m, (next m).CallsOnly P
  | write _ next => next.CallsOnly P

/-- Nothing is forbidden if everything is allowed. -/
theorem Computation.callsOnly_true (b : Computation C V M) : b.CallsOnly fun _ => True := by
  induction b with
  | done v => trivial
  | panic t => trivial
  | call c next ih => exact ⟨trivial, ih⟩
  | read next ih => exact ih
  | write m next ih => exact ih

/-- What goes on with the value of a call makes that call, and those after it. -/
theorem Computation.callsOnly_callThen {P : C → Prop} {c : C} {next : V → Computation C V M} :
    (Computation.callThen c next).CallsOnly P ↔ P c ∧ ∀ v, (next v).CallsOnly P := by
  constructor
  · rintro ⟨hc, hnext⟩
    exact ⟨hc, fun v => hnext (.value v)⟩
  · rintro ⟨hc, hnext⟩
    refine ⟨hc, fun o => ?_⟩
    cases o with
    | value v => exact hnext v
    | panicked t => trivial

/-! ### Without memoization -/

/-- A computation that ends does so with calls that end in the same way more often. -/
theorem Computation.runDirect_mono {f g : C → M → Option (Outcome V × M)}
    (hfg : ∀ c m r, f c m = some r → g c m = some r) (b : Computation C V M) (m : M)
    {r : Outcome V × M} (h : b.runDirect f m = some r) : b.runDirect g m = some r := by
  induction b generalizing m with
  | done v => exact h
  | panic t => exact h
  | call c next ih =>
      simp only [runDirect] at h ⊢
      cases hc : f c m with
      | none => simp [hc] at h
      | some q =>
          rw [hfg c m q hc]
          rw [hc] at h
          exact ih q.1 q.2 h
  | read next ih => exact ih m m h
  | write m' next ih => exact ih m' h

namespace Program

/-- What ends at a depth ends in the same way one level deeper. -/
theorem direct_succ (p : Program C H K V M) (n : Nat) (c : C) (m : M) {r : Outcome V × M}
    (h : p.direct n c m = some r) : p.direct (n + 1) c m = some r := by
  induction n generalizing c m r with
  | zero => simp [direct] at h
  | succ n ih => exact Computation.runDirect_mono (fun c m r => ih c m) (p.body c) m h

/-- What ends at a depth ends in the same way at greater depths. -/
theorem direct_mono (p : Program C H K V M) {n k : Nat} (hnk : n ≤ k) {c : C} {m : M}
    {r : Outcome V × M} (h : p.direct n c m = some r) : p.direct k c m = some r := by
  induction hnk with
  | refl => exact h
  | step _ ih => exact p.direct_succ _ c m ih

/-- How a call ends without memoization does not depend on the depth. -/
theorem direct_unique (p : Program C H K V M) {n k : Nat} {c : C} {m : M} {q r : Outcome V × M}
    (hq : p.direct n c m = some q) (hr : p.direct k c m = some r) : q = r := by
  have h := p.direct_mono (Nat.le_max_left n k) hq
  rw [p.direct_mono (Nat.le_max_right n k) hr] at h
  exact (Option.some.inj h).symm

end Program

/-! ### Moves of a memoized call -/

variable [DecidableEq H]

/-- A machine that has not done anything. -/
def Machine.initial (m : M) : Machine H K V M := ⟨[], m, []⟩

/-- Every holder of such a machine has the store it starts with. -/
@[simp] theorem Machine.store_initial (fresh : H → Store K V) (m : M) (h : H) :
    (Machine.initial m).store fresh h = fresh h := rfl

/-- The keys for which something happened to a holder, latest first. -/
def Machine.keysAt (s : Machine H K V M) (stage : Stage) (h : H) : List K :=
  (s.history.filter fun o => o.stage = stage ∧ o.holder = h).map (·.key)

/-- Taking down what happens adds a key for the stage and the holder of it. -/
theorem Machine.keysAt_note (s : Machine H K V M) (stage stage' : Stage) (h h' : H) (k : K) :
    (s.note stage' h' k).keysAt stage h =
      if stage' = stage ∧ h' = h then k :: s.keysAt stage h else s.keysAt stage h := by
  by_cases hs : stage' = stage ∧ h' = h
  · simp [keysAt, note, hs]
  · simp only [keysAt, note, if_neg hs, List.filter_cons, decide_eq_true_eq]

variable [DecidableEq K]

namespace Program

variable (p : Program C H K V M) (fresh : H → Store K V)

/-- The machine after a call has asked the store of its holder. -/
def asked (c : C) (s : Machine H K V M) : Machine H K V M :=
  (s.note .called (p.holder c) (p.key c s.memory)).setStore (p.holder c)
    ((s.store fresh (p.holder c)).get (p.key c s.memory)).state

/-- The machine in which the body of a call starts. -/
def started (c : C) (s : Machine H K V M) : Machine H K V M :=
  (p.asked fresh c s).note .started (p.holder c) (p.key c s.memory)

/-- The machine after the result of a body is kept. -/
def kept (h : H) (k : K) (v : V) (s : Machine H K V M) : Machine H K V M :=
  (s.setStore h ((s.store fresh h).put k v).state).note .completed h k

/-- Asking a store takes down one call. -/
theorem keysAt_asked (c : C) (s : Machine H K V M) (stage : Stage) (h : H) :
    (p.asked fresh c s).keysAt stage h =
      if .called = stage ∧ p.holder c = h then p.key c s.memory :: s.keysAt stage h
      else s.keysAt stage h :=
  s.keysAt_note stage .called h (p.holder c) (p.key c s.memory)

/-- Starting a body takes down its start, after the call. -/
theorem keysAt_started (c : C) (s : Machine H K V M) (stage : Stage) (h : H) :
    (p.started fresh c s).keysAt stage h =
      if .started = stage ∧ p.holder c = h then
        p.key c s.memory :: (p.asked fresh c s).keysAt stage h
      else (p.asked fresh c s).keysAt stage h :=
  (p.asked fresh c s).keysAt_note stage .started h (p.holder c) (p.key c s.memory)

/-- Keeping a result takes down one end of a body. -/
theorem keysAt_kept (h : H) (k : K) (v : V) (s : Machine H K V M) (stage : Stage) (i : H) :
    (kept fresh h k v s).keysAt stage i =
      if .completed = stage ∧ h = i then k :: s.keysAt stage i else s.keysAt stage i :=
  (s.setStore h ((s.store fresh h).put k v).state).keysAt_note stage .completed i h k

/-- Nothing happens to other holders when a body starts. -/
theorem keysAt_started_of_ne {c : C} {h : H} (hne : h ≠ p.holder c) (s : Machine H K V M)
    (stage : Stage) : (p.started fresh c s).keysAt stage h = s.keysAt stage h := by
  rw [keysAt_started, keysAt_asked, if_neg fun hh => hne hh.2.symm, if_neg fun hh => hne hh.2.symm]

/-- Nothing happens to other holders when a store is asked. -/
theorem keysAt_asked_of_ne {c : C} {h : H} (hne : h ≠ p.holder c) (s : Machine H K V M)
    (stage : Stage) : (p.asked fresh c s).keysAt stage h = s.keysAt stage h := by
  rw [keysAt_asked, if_neg fun hh => hne hh.2.symm]

/-- Nothing happens to other holders when a result is kept. -/
theorem keysAt_kept_of_ne {h i : H} (hne : i ≠ h) (k : K) (v : V) (s : Machine H K V M)
    (stage : Stage) : (kept fresh h k v s).keysAt stage i = s.keysAt stage i := by
  rw [keysAt_kept, if_neg fun hh => hne hh.2.symm]

/-- The store that a call asks. -/
theorem store_asked_self (c : C) (s : Machine H K V M) :
    (p.asked fresh c s).store fresh (p.holder c) =
      ((s.store fresh (p.holder c)).get (p.key c s.memory)).state :=
  Machine.store_setStore_self fresh _ (p.holder c) _

/-- A call asks no store but that of its holder. -/
theorem store_asked_of_ne {c : C} {h : H} (hne : h ≠ p.holder c) (s : Machine H K V M) :
    (p.asked fresh c s).store fresh h = s.store fresh h :=
  Machine.store_setStore_of_ne fresh _ hne _

/-- Asking a store changes nothing that any store holds. -/
theorem entries_asked (c : C) (s : Machine H K V M) (h : H) :
    ((p.asked fresh c s).store fresh h).entries = (s.store fresh h).entries := by
  by_cases hh : h = p.holder c
  · rw [hh, store_asked_self, Store.entries_get]
  · rw [store_asked_of_ne p fresh hh]

/-- The store in which a result is kept. -/
theorem store_kept_self (h : H) (k : K) (v : V) (s : Machine H K V M) :
    (kept fresh h k v s).store fresh h = ((s.store fresh h).put k v).state :=
  Machine.store_setStore_self fresh s h _

/-- Keeping a result changes the entry of its key. -/
theorem entries_kept (h : H) (k : K) (v : V) (s : Machine H K V M) :
    ((kept fresh h k v s).store fresh h).entries = (s.store fresh h).entries.insert k v := by
  rw [store_kept_self, Store.entries_put]

/-- Keeping a result leaves the stores of the other holders alone. -/
theorem store_kept_of_ne {h i : H} (hne : i ≠ h) (k : K) (v : V) (s : Machine H K V M) :
    (kept fresh h k v s).store fresh i = s.store fresh i :=
  Machine.store_setStore_of_ne fresh s hne _

/-- A call that nests deep enough answers what is stored for its key, or runs its body. -/
theorem call_succ (n : Nat) (c : C) (s : Machine H K V M) :
    p.call fresh (n + 1) c s =
      match (s.store fresh (p.holder c)).entries.get? (p.key c s.memory) with
      | some v => some (.value v, p.asked fresh c s)
      | none => ((p.body c).run (p.call fresh n) (p.started fresh c s)).map
          (keep fresh (p.holder c) (p.key c s.memory)) := by
  simp only [call, step, Store.get_answer]
  rfl

/-- What a call that ended did: it answered what was stored for its key, or its body panicked, or
the value of its body is kept. -/
theorem call_cases {n : Nat} {c : C} {s t : Machine H K V M} {o : Outcome V}
    (h : p.call fresh (n + 1) c s = some (o, t)) :
    (∃ v, (s.store fresh (p.holder c)).entries.get? (p.key c s.memory) = some v ∧
      o = .value v ∧ t = p.asked fresh c s) ∨
    (s.store fresh (p.holder c)).entries.get? (p.key c s.memory) = none ∧
      ((∃ e, (p.body c).run (p.call fresh n) (p.started fresh c s) = some (.panicked e, t) ∧
        o = .panicked e) ∨
      ∃ v u, (p.body c).run (p.call fresh n) (p.started fresh c s) = some (.value v, u) ∧
        o = .value v ∧ t = kept fresh (p.holder c) (p.key c s.memory) v u) := by
  rw [call_succ] at h
  cases hv : (s.store fresh (p.holder c)).entries.get? (p.key c s.memory) with
  | some v =>
      rw [hv] at h
      obtain ⟨rfl, rfl⟩ := Prod.mk.inj (Option.some.inj h)
      exact Or.inl ⟨v, rfl, rfl, rfl⟩
  | none =>
      rw [hv] at h
      obtain ⟨⟨o', u⟩, hr, hk⟩ := Option.map_eq_some_iff.mp h
      refine Or.inr ⟨rfl, ?_⟩
      cases o' with
      | panicked e =>
          obtain ⟨rfl, rfl⟩ := Prod.mk.inj hk
          exact Or.inl ⟨e, hr, rfl⟩
      | value v =>
          obtain ⟨rfl, rfl⟩ := Prod.mk.inj hk
          exact Or.inr ⟨v, u, hr, rfl, rfl⟩

/-! ### Invariants -/

variable {p fresh}

omit [DecidableEq H] [DecidableEq K] in
/-- What calls and writing keep is kept by a computation that makes only such calls. -/
theorem run_preserves {I : Machine H K V M → Prop} {Q : C → Prop} {callee : Callee C H K V M}
    (hcallee : ∀ c s o t, Q c → I s → callee c s = some (o, t) → I t)
    (hwrite : ∀ s m, I s → I { s with memory := m })
    (b : Computation C V M) (hb : b.CallsOnly Q) (s : Machine H K V M) (hs : I s)
    {o : Outcome V} {t : Machine H K V M} (h : b.run callee s = some (o, t)) : I t := by
  induction b generalizing s with
  | done v =>
      obtain ⟨-, rfl⟩ := Prod.mk.inj (Option.some.inj h)
      exact hs
  | panic e =>
      obtain ⟨-, rfl⟩ := Prod.mk.inj (Option.some.inj h)
      exact hs
  | call c next ih =>
      simp only [Computation.run] at h
      cases hc : callee c s with
      | none => simp [hc] at h
      | some q =>
          obtain ⟨o', u⟩ := q
          have hu := hcallee c s o' u hb.1 hs hc
          rw [hc] at h
          exact ih o' (hb.2 o') u hu h
  | read next ih => exact ih s.memory (hb s.memory) s hs h
  | write m next ih => exact ih hb _ (hwrite s m hs) h

/-- The moves of the calls that `Q` allows keep a property of machines. -/
structure Stable (p : Program C H K V M) (fresh : H → Store K V) (Q : C → Prop)
    (I : Machine H K V M → Prop) : Prop where
  calls : ∀ c, Q c → (p.body c).CallsOnly Q
  hit : ∀ c s v, Q c → I s →
    (s.store fresh (p.holder c)).entries.get? (p.key c s.memory) = some v → I (p.asked fresh c s)
  miss : ∀ c s, Q c → I s →
    (s.store fresh (p.holder c)).entries.get? (p.key c s.memory) = none → I (p.started fresh c s)
  keep : ∀ c k v s, Q c → I s → I (kept fresh (p.holder c) k v s)
  write : ∀ s m, I s → I { s with memory := m }

/-- What the moves of calls keep is kept by whole calls. -/
theorem Stable.call_preserves {Q : C → Prop} {I : Machine H K V M → Prop}
    (hI : p.Stable fresh Q I) (n : Nat) (c : C) (s : Machine H K V M) (o : Outcome V)
    (t : Machine H K V M) (hc : Q c) (hs : I s) (h : p.call fresh n c s = some (o, t)) : I t := by
  induction n generalizing c s o t with
  | zero => simp [call] at h
  | succ n ih =>
      rcases p.call_cases fresh h with ⟨v, hv, -, rfl⟩ | ⟨hv, ⟨e, hr, -⟩ | ⟨v, u, hr, -, rfl⟩⟩
      · exact hI.hit c s v hc hs hv
      · exact run_preserves ih hI.write (p.body c) (hI.calls c hc) _ (hI.miss c s hc hs hv) hr
      · apply hI.keep c _ v u hc
        exact run_preserves ih hI.write (p.body c) (hI.calls c hc) _ (hI.miss c s hc hs hv) hr

end Program

/-! ### Reachable states -/

/-- The states that a computation passes through, `callee` running its calls and `during` holding of
the states that these pass through. -/
inductive Computation.Passes (callee : Callee C H K V M)
    (during : C → Machine H K V M → Machine H K V M → Prop) :
    Computation C V M → Machine H K V M → Machine H K V M → Prop
  | here (b : Computation C V M) (s : Machine H K V M) : Passes callee during b s s
  | within {c : C} {next : Outcome V → Computation C V M} {s t : Machine H K V M}
      (h : during c s t) : Passes callee during (.call c next) s t
  | after {c : C} {next : Outcome V → Computation C V M} {s s' t : Machine H K V M}
      {o : Outcome V} (h : callee c s = some (o, s')) (tail : Passes callee during (next o) s' t) :
      Passes callee during (.call c next) s t
  | read {next : M → Computation C V M} {s t : Machine H K V M}
      (tail : Passes callee during (next s.memory) s t) : Passes callee during (.read next) s t
  | write {m : M} {next : Computation C V M} {s t : Machine H K V M}
      (tail : Passes callee during next { s with memory := m } t) :
      Passes callee during (.write m next) s t

namespace Program

variable (p : Program C H K V M) (fresh : H → Store K V)

/-- The states that a call passes through after its start, for calls nested less than `depth` deep:
those of its body, and its last one. -/
def Passes : (depth : Nat) → C → Machine H K V M → Machine H K V M → Prop
  | 0 => fun _ _ _ => False
  | n + 1 => fun c s t =>
    ((s.store fresh (p.holder c)).entries.get? (p.key c s.memory) = none ∧
      (p.body c).Passes (p.call fresh n) (Passes n) (p.started fresh c s) t) ∨
    ∃ o, p.call fresh (n + 1) c s = some (o, t)

/-- Runs of calls that end, one after the other; between them the memory may change. -/
inductive Run : Machine H K V M → List C → Machine H K V M → Prop
  | done (s : Machine H K V M) : Run s [] s
  | call {n : Nat} {c : C} {o : Outcome V} {s t u : Machine H K V M} {cs : List C}
      (h : p.call fresh n c s = some (o, t)) (tail : Run t cs u) : Run s (c :: cs) u
  | memory {m : M} {s u : Machine H K V M} {cs : List C}
      (tail : Run { s with memory := m } cs u) : Run s cs u

/-- The states between the calls of a run that starts with nothing stored, and those that a further
call passes through. -/
def Reachable (s : Machine H K V M) : Prop :=
  ∃ m cs t, p.Run fresh (.initial m) cs t ∧ (s = t ∨ ∃ n c, p.Passes fresh n c t s)

variable {p fresh}

/-- The states between calls are reachable. -/
theorem Run.reachable {m : M} {cs : List C} {s : Machine H K V M}
    (h : p.Run fresh (.initial m) cs s) : p.Reachable fresh s :=
  ⟨m, cs, s, h, Or.inl rfl⟩

/-- What calls and writing keep is kept by runs of calls that `Q` allows. -/
theorem Run.preserves {I : Machine H K V M → Prop} {Q : C → Prop}
    (hcall : ∀ n c s o t, Q c → I s → p.call fresh n c s = some (o, t) → I t)
    (hwrite : ∀ s m, I s → I { s with memory := m })
    {s t : Machine H K V M} {cs : List C} (h : p.Run fresh s cs t) (hcs : ∀ c ∈ cs, Q c)
    (hs : I s) : I t := by
  induction h with
  | done s => exact hs
  | call hc tail ih =>
      apply ih (fun c hc => hcs c (List.mem_cons_of_mem _ hc))
      exact hcall _ _ _ _ _ (hcs _ List.mem_cons_self) hs hc
  | memory tail ih => exact ih hcs (hwrite _ _ hs)

omit [DecidableEq H] [DecidableEq K] in
/-- What calls and writing keep, also within calls, holds in all states that a computation passes
through. -/
theorem computation_passes {I : Machine H K V M → Prop} {callee : Callee C H K V M}
    {during : C → Machine H K V M → Machine H K V M → Prop}
    (hcallee : ∀ c s o t, I s → callee c s = some (o, t) → I t)
    (hduring : ∀ c s t, I s → during c s t → I t)
    (hwrite : ∀ s m, I s → I { s with memory := m })
    {b : Computation C V M} {s t : Machine H K V M} (h : b.Passes callee during s t)
    (hs : I s) : I t := by
  induction h with
  | here b s => exact hs
  | within hd => exact hduring _ _ _ hs hd
  | after hc tail ih => exact ih (hcallee _ _ _ _ hs hc)
  | read tail ih => exact ih hs
  | write tail ih => exact ih (hwrite _ _ hs)

/-- What calls, starting bodies and writing keep holds in all states that a call passes through. -/
theorem passes_preserves {I : Machine H K V M → Prop}
    (hcall : ∀ n c s o t, I s → p.call fresh n c s = some (o, t) → I t)
    (hmiss : ∀ c s, I s →
      (s.store fresh (p.holder c)).entries.get? (p.key c s.memory) = none →
        I (p.started fresh c s))
    (hwrite : ∀ s m, I s → I { s with memory := m })
    (n : Nat) (c : C) (s t : Machine H K V M) (hs : I s) (h : p.Passes fresh n c s t) : I t := by
  induction n generalizing c s t with
  | zero => exact h.elim
  | succ n ih =>
      rcases h with ⟨hv, hb⟩ | ⟨o, ho⟩
      · exact computation_passes (hcall n) ih hwrite hb (hmiss c s hs hv)
      · exact hcall _ _ _ _ _ hs ho

/-- What calls, starting bodies and writing keep holds in all reachable states if it holds at the
start. -/
theorem Reachable.preserves {I : Machine H K V M → Prop} (hinit : ∀ m, I (.initial m))
    (hcall : ∀ n c s o t, I s → p.call fresh n c s = some (o, t) → I t)
    (hmiss : ∀ c s, I s →
      (s.store fresh (p.holder c)).entries.get? (p.key c s.memory) = none →
        I (p.started fresh c s))
    (hwrite : ∀ s m, I s → I { s with memory := m })
    {s : Machine H K V M} (h : p.Reachable fresh s) : I s := by
  obtain ⟨m, cs, t, hrun, hst⟩ := h
  have ht : I t := hrun.preserves (Q := fun _ => True) (fun n c s o t _ => hcall n c s o t) hwrite
    (fun _ _ => trivial) (hinit m)
  rcases hst with rfl | ⟨n, c, hpass⟩
  · exact ht
  · exact passes_preserves hcall hmiss hwrite n c t s ht hpass

/-- What the moves of all calls keep holds in all reachable states if it holds at the start. -/
theorem Stable.of_reachable {I : Machine H K V M → Prop}
    (hI : p.Stable fresh (fun _ => True) I) (hinit : ∀ m, I (.initial m))
    {s : Machine H K V M} (h : p.Reachable fresh s) : I s :=
  h.preserves hinit (fun n c s o t => hI.call_preserves n c s o t trivial)
    (fun c s => hI.miss c s trivial) hI.write

end Program

end Memoize
