import Memoize.Proofs.Sample.Fibonacci

/-!
# Holders do not interfere

Some holders are one's own: those of one function, or of one instance. A call sees the holder that it
asks, and a run is what its calls see. Main statement: one's own calls see the same without the calls
for other holders, if what these do to the memory is done without them, or if one's own calls do not
look at it (`holders_apart`). Nothing depends on what the stores are, so caches may have one name, and
keys may be equal.

## Implementation notes

What functions look at is a view of the memory, and machines that have the same view and the same
stores of one's own holders are told apart by no call of one's own. Bodies may call functions on
their own side, so recursion is allowed.
-/

namespace Memoize

variable {C H K V M A : Type}

/-! ### What computations look at -/

/-- Two computations do the same, and look at nothing but a view of the memory. -/
inductive Computation.Alike (view : M → A) : Computation C V M → Computation C V M → Prop
  | done (v : V) : Alike view (.done v) (.done v)
  | panic (t : String) : Alike view (.panic t) (.panic t)
  | call (c : C) {next next' : Outcome V → Computation C V M}
      (h : ∀ o, Alike view (next o) (next' o)) : Alike view (.call c next) (.call c next')
  | read {next next' : M → Computation C V M}
      (h : ∀ m m', view m = view m' → Alike view (next m) (next' m')) :
      Alike view (.read next) (.read next')
  | write {m m' : M} {next next' : Computation C V M} (hm : view m = view m')
      (h : Alike view next next') : Alike view (.write m next) (.write m' next')

/-- A computation changes nothing of a view of the memory. -/
def Computation.Keeps (view : M → A) (a : A) : Computation C V M → Prop
  | done _ => True
  | panic _ => True
  | call _ next => ∀ o, (next o).Keeps view a
  | read next => ∀ m, view m = a → (next m).Keeps view a
  | write m next => view m = a ∧ next.Keeps view a

/-- Computations do the same if they look at the whole memory. -/
theorem Computation.alike_id (b : Computation C V M) : b.Alike id b := by
  induction b with
  | done v => exact .done v
  | panic t => exact .panic t
  | call c next ih => exact .call c ih
  | read next ih =>
    refine .read fun m m' hm => ?_
    obtain rfl : m = m' := hm
    exact ih m
  | write m next ih => exact .write rfl ih

/-- Computations that go on alike with the value of a call. -/
theorem Computation.Alike.callThen {view : M → A} (c : C) {next next' : V → Computation C V M}
    (h : ∀ v, (next v).Alike view (next' v)) :
    (Computation.callThen c next).Alike view (Computation.callThen c next') := by
  refine .call c fun o => ?_
  cases o with
  | value v => exact h v
  | panicked t => exact .panic t

/-- What goes on with the value of a call and changes nothing of a view. -/
theorem Computation.Keeps.callThen {view : M → A} {a : A} (c : C) {next : V → Computation C V M}
    (h : ∀ v, (next v).Keeps view a) : (Computation.callThen c next).Keeps view a := by
  intro o
  cases o with
  | value v => exact h v
  | panicked t => trivial

/-- Bodies call functions on their own side only: some holders are one's own, the others are not. -/
def Program.CallsOwnSide (p : Program C H K V M) (own : H → Bool) : Prop :=
  ∀ c, (p.body c).CallsOnly fun d => own (p.holder d) = own (p.holder c)

/-- The calls for some holders look at nothing but a view of the memory. -/
structure Program.Sees (p : Program C H K V M) (own : H → Bool) (view : M → A) : Prop where
  key : ∀ c, own (p.holder c) = true → ∀ m m', view m = view m' → p.key c m = p.key c m'
  body : ∀ c, own (p.holder c) = true → (p.body c).Alike view (p.body c)

/-- The calls for some holders look at nothing but a view of the memory, of which the other calls
change nothing. -/
structure Program.Apart (p : Program C H K V M) (own : H → Bool) (view : M → A) : Prop extends
    p.Sees own view where
  others : ∀ c, own (p.holder c) = false → ∀ a, (p.body c).Keeps view a

/-- All calls look at the whole memory. -/
theorem Program.sees_id (p : Program C H K V M) (own : H → Bool) : p.Sees own id where
  key c _ _ _ hm := congrArg (p.key c) hm
  body c _ := (p.body c).alike_id

/-! ### Runs and what is seen of them -/

/-- A step of a run. -/
inductive Act (C M : Type) where
  /-- A call is made. -/
  | call (callee : C)
  /-- The memory is changed between calls. -/
  | change (f : M → M)

/-- What is seen of a call: how it ended, and what its holder has and what happened to it so far. -/
structure Sight (C H K V : Type) where
  call : C
  outcome : Outcome V
  store : Store K V
  history : List (Occurrence H K)

namespace Program

/-- Whether a step is no call for another holder. -/
def isOwn (p : Program C H K V M) (own : H → Bool) : Act C M → Bool
  | .call c => own (p.holder c)
  | .change _ => true

/-- What is seen of the calls of some holders. -/
def ownSights (p : Program C H K V M) (own : H → Bool) (seen : List (Sight C H K V)) :
    List (Sight C H K V) :=
  seen.filter fun q => own (p.holder q.call)

/-- A call of one's own is seen. -/
theorem ownSights_own {p : Program C H K V M} {own : H → Bool} {q : Sight C H K V}
    {rest : List (Sight C H K V)} (hq : own (p.holder q.call) = true) :
    p.ownSights own (q :: rest) = q :: p.ownSights own rest :=
  List.filter_cons_of_pos hq

/-- Another call is not seen. -/
theorem ownSights_other {p : Program C H K V M} {own : H → Bool} {q : Sight C H K V}
    {rest : List (Sight C H K V)} (hq : own (p.holder q.call) = false) :
    p.ownSights own (q :: rest) = p.ownSights own rest :=
  List.filter_cons_of_neg (by simp [hq])

end Program

variable [DecidableEq H]

/-- Two machines have the same stores and the same past of some holders, and the same view of the
memory. -/
structure Machine.Agree (fresh : H → Store K V) (own : H → Bool) (view : M → A)
    (s t : Machine H K V M) : Prop where
  memory : view s.memory = view t.memory
  stores : ∀ h, own h = true → s.store fresh h = t.store fresh h
  history : s.history.filter (own ·.holder) = t.history.filter (own ·.holder)

namespace Machine.Agree

variable {fresh : H → Store K V} {own : H → Bool} {view : M → A} {s t u : Machine H K V M}

/-- A machine agrees with itself. -/
theorem refl (s : Machine H K V M) : s.Agree fresh own view s := ⟨rfl, fun _ _ => rfl, rfl⟩

/-- Agreement passes on. -/
theorem trans (h : s.Agree fresh own view t) (h' : t.Agree fresh own view u) :
    s.Agree fresh own view u :=
  ⟨h.memory.trans h'.memory, fun i hi => (h.stores i hi).trans (h'.stores i hi),
    h.history.trans h'.history⟩

/-- Changing the memory of both machines to the same view. -/
theorem write (h : s.Agree fresh own view t) {m m' : M} (hm : view m = view m') :
    Agree fresh own view { s with memory := m } { t with memory := m' } :=
  ⟨hm, h.stores, h.history⟩

/-- Taking down the same for both machines. -/
theorem note (h : s.Agree fresh own view t) (stage : Stage) (i : H) (k : K) :
    (s.note stage i k).Agree fresh own view (t.note stage i k) :=
  ⟨h.memory, h.stores, by simp only [Machine.note, List.filter_cons, h.history]⟩

/-- Changing the store of a holder of both machines in the same way. -/
theorem setStore (h : s.Agree fresh own view t) (i : H) (store : Store K V) :
    (s.setStore i store).Agree fresh own view (t.setStore i store) := by
  refine ⟨h.memory, fun j hj => ?_, h.history⟩
  by_cases hji : j = i
  · rw [hji, store_setStore_self, store_setStore_self]
  · rw [store_setStore_of_ne fresh s hji, store_setStore_of_ne fresh t hji, h.stores j hj]

/-- Taking down what happens to another holder. -/
theorem note_other {i : H} (hi : own i = false) (stage : Stage) (k : K) (s : Machine H K V M) :
    (s.note stage i k).Agree fresh own view s :=
  ⟨rfl, fun _ _ => rfl, by simp [Machine.note, hi]⟩

/-- Changing the store of another holder. -/
theorem setStore_other {i : H} (hi : own i = false) (store : Store K V) (s : Machine H K V M) :
    (s.setStore i store).Agree fresh own view s := by
  refine ⟨rfl, fun j hj => store_setStore_of_ne fresh s ?_ store, rfl⟩
  rintro rfl
  exact absurd (hi.symm.trans hj) (by simp)

end Machine.Agree

variable [DecidableEq K]

namespace Program

variable (p : Program C H K V M) (fresh : H → Store K V)

/-- What is seen of a call that ended. -/
def sight (c : C) (o : Outcome V) (t : Machine H K V M) : Sight C H K V :=
  ⟨c, o, t.store fresh (p.holder c), t.history.filter (·.holder = p.holder c)⟩

/-- Takes the steps of a run, for calls nested less than `depth` deep, and lists what is seen of the
calls. -/
def watch (depth : Nat) :
    List (Act C M) → Machine H K V M → Option (List (Sight C H K V) × Machine H K V M)
  | [], s => some ([], s)
  | .call c :: acts, s =>
    match p.call fresh depth c s with
    | none => none
    | some (o, t) => (watch depth acts t).map fun r => (p.sight fresh c o t :: r.1, r.2)
  | .change f :: acts, s => watch depth acts { s with memory := f s.memory }

/-- A run with the calls for other holders replaced by what they do to the memory. -/
def silence (own : H → Bool) (depth : Nat) : List (Act C M) → Machine H K V M → List (Act C M)
  | [], _ => []
  | .call c :: acts, s =>
    match p.call fresh depth c s with
    | none => []
    | some (_, t) =>
      (if own (p.holder c) then .call c else .change fun _ => t.memory) :: silence own depth acts t
  | .change f :: acts, s => .change f :: silence own depth acts { s with memory := f s.memory }

variable {p fresh} {own : H → Bool} {view : M → A}

/-- A run that starts with a call goes on from where the call ends. -/
theorem watch_call {n : Nat} {c : C} {acts : List (Act C M)} {s u : Machine H K V M}
    {seen : List (Sight C H K V)} (h : p.watch fresh n (.call c :: acts) s = some (seen, u)) :
    ∃ o t rest, p.call fresh n c s = some (o, t) ∧ p.watch fresh n acts t = some (rest, u) ∧
      seen = p.sight fresh c o t :: rest := by
  simp only [watch] at h
  cases hc : p.call fresh n c s with
  | none => simp [hc] at h
  | some q =>
    obtain ⟨o, t⟩ := q
    rw [hc] at h
    obtain ⟨⟨rest, u'⟩, hrest, heq⟩ := Option.map_eq_some_iff.mp h
    obtain ⟨rfl, rfl⟩ := Prod.mk.inj heq
    exact ⟨o, t, rest, rfl, hrest, rfl⟩

/-- A call that ends is followed by the rest of a run. -/
theorem watch_of_call {n : Nat} {c : C} {acts : List (Act C M)} {s t u : Machine H K V M}
    {o : Outcome V} {rest : List (Sight C H K V)} (hc : p.call fresh n c s = some (o, t))
    (h : p.watch fresh n acts t = some (rest, u)) :
    p.watch fresh n (.call c :: acts) s = some (p.sight fresh c o t :: rest, u) := by
  simp only [watch, hc, h, Option.map_some]

omit [DecidableEq K] in
/-- The same is seen of a call in machines that agree about its holder. -/
theorem sight_eq {c : C} (hc : own (p.holder c) = true) (o : Outcome V) {s t : Machine H K V M}
    (h : s.Agree fresh own view t) : p.sight fresh c o s = p.sight fresh c o t := by
  have hpast : ∀ u : Machine H K V M, u.history.filter (·.holder = p.holder c) =
      (u.history.filter (own ·.holder)).filter (·.holder = p.holder c) := by
    intro u
    rw [List.filter_filter]
    refine List.filter_congr fun q _ => ?_
    by_cases hq : q.holder = p.holder c <;> simp [hq, hc]
  rw [sight, sight, h.stores _ hc, hpast s, hpast t, h.history]

/-! ### One's own calls -/

omit [DecidableEq K] in
/-- Alike computations end alike in machines that agree, if the calls that they make do. -/
theorem run_alike {Q : C → Prop} {callee : Callee C H K V M}
    (hcallee : ∀ c s s' o t, Q c → s.Agree fresh own view s' → callee c s = some (o, t) →
      ∃ t', callee c s' = some (o, t') ∧ t.Agree fresh own view t')
    {b b' : Computation C V M} (hb : b.Alike view b') (hcalls : b.CallsOnly Q)
    {s s' : Machine H K V M} (hs : s.Agree fresh own view s') {o : Outcome V}
    {t : Machine H K V M} (h : b.run callee s = some (o, t)) :
    ∃ t', b'.run callee s' = some (o, t') ∧ t.Agree fresh own view t' := by
  induction hb generalizing s s' with
  | done v =>
    obtain ⟨rfl, rfl⟩ := Prod.mk.inj (Option.some.inj h)
    exact ⟨s', rfl, hs⟩
  | panic e =>
    obtain ⟨rfl, rfl⟩ := Prod.mk.inj (Option.some.inj h)
    exact ⟨s', rfl, hs⟩
  | call c _ ih =>
    simp only [Computation.run] at h ⊢
    cases hc : callee c s with
    | none => simp [hc] at h
    | some q =>
      obtain ⟨o', u⟩ := q
      obtain ⟨u', hu', hu⟩ := hcallee c s s' o' u hcalls.1 hs hc
      rw [hc] at h
      rw [hu']
      exact ih o' (hcalls.2 o') hu h
  | read _ ih => exact ih _ _ hs.memory (hcalls s.memory) hs h
  | write hm _ ih => exact ih hcalls (hs.write hm) h

/-- The machines in which the bodies of a call start agree. -/
theorem started_agree {c : C} {s s' : Machine H K V M} (hc : own (p.holder c) = true)
    (hkey : p.key c s.memory = p.key c s'.memory) (hs : s.Agree fresh own view s') :
    (p.asked fresh c s).Agree fresh own view (p.asked fresh c s') ∧
      (p.started fresh c s).Agree fresh own view (p.started fresh c s') := by
  have hasked : (p.asked fresh c s).Agree fresh own view (p.asked fresh c s') := by
    rw [asked, asked, hkey, hs.stores _ hc]
    exact (hs.note _ _ _).setStore _ _
  refine ⟨hasked, ?_⟩
  rw [started, started, hkey]
  exact hasked.note _ _ _

/-- The machines in which results are kept agree. -/
theorem kept_agree {h : H} {k : K} {v : V} {s s' : Machine H K V M} (hh : own h = true)
    (hs : s.Agree fresh own view s') :
    (kept fresh h k v s).Agree fresh own view (kept fresh h k v s') := by
  rw [kept, kept, hs.stores _ hh]
  exact (hs.setStore _ _).note _ _ _

/-- One's own calls end alike in machines that agree. -/
theorem Sees.call_agree (hp : p.Sees own view)
    (hcalls : p.CallsOwnSide own)
    (n : Nat) (c : C) (s s' : Machine H K V M) (o : Outcome V) (t : Machine H K V M)
    (hc : own (p.holder c) = true) (hs : s.Agree fresh own view s')
    (h : p.call fresh n c s = some (o, t)) :
    ∃ t', p.call fresh n c s' = some (o, t') ∧ t.Agree fresh own view t' := by
  induction n generalizing c s s' o t with
  | zero => simp [call] at h
  | succ n ih =>
    -- both calls ask the same store for the same key, so both find a result or both run the body
    have hkey := hp.key c hc _ _ hs.memory
    obtain ⟨hasked, hstarted⟩ := started_agree hc hkey hs
    rw [call_succ, ← hkey, ← hs.stores _ hc]
    rcases p.call_cases fresh h with ⟨v, hv, rfl, rfl⟩ | ⟨hv, hbody⟩
    · rw [hv]
      exact ⟨_, rfl, hasked⟩
    · have hown := hcalls c
      rw [hc] at hown
      rw [hv]
      rcases hbody with ⟨e, hr, rfl⟩ | ⟨v, u, hr, rfl, rfl⟩
      · obtain ⟨u', hu', hu⟩ := run_alike ih (hp.body c hc) hown hstarted hr
        exact ⟨u', by rw [hu']; rfl, hu⟩
      · obtain ⟨u', hu', hu⟩ := run_alike ih (hp.body c hc) hown hstarted hr
        exact ⟨_, by rw [hu']; rfl, kept_agree hc hu⟩

/-! ### Other calls -/

/-- Asking the store of another holder. -/
theorem asked_other {c : C} (hc : own (p.holder c) = false) (s : Machine H K V M) :
    (p.asked fresh c s).Agree fresh own view s :=
  (Machine.Agree.setStore_other hc _ _).trans (.note_other hc _ _ s)

/-- Starting the body of a call for another holder. -/
theorem started_other {c : C} (hc : own (p.holder c) = false) (s : Machine H K V M) :
    (p.started fresh c s).Agree fresh own view s :=
  (Machine.Agree.note_other hc _ _ _).trans (asked_other hc s)

/-- Keeping a result for another holder. -/
theorem kept_other {h : H} (hh : own h = false) (k : K) (v : V) (s : Machine H K V M) :
    (kept fresh h k v s).Agree fresh own view s :=
  (Machine.Agree.note_other hh _ _ _).trans (.setStore_other hh _ s)

/-- Other calls leave the stores and the past of one's own holders as they are, whatever they do to
the memory. -/
theorem others_stable (hcalls : p.CallsOwnSide own) (s : Machine H K V M) :
    p.Stable fresh (fun c => own (p.holder c) = false) fun t =>
      t.Agree fresh own (fun _ => ()) s where
  calls c hc := hc ▸ hcalls c
  hit _ t _ hc ht _ := (asked_other hc t).trans ht
  miss _ t hc ht _ := (started_other hc t).trans ht
  keep _ k v t hc ht := (kept_other hc k v t).trans ht
  write _ _ ht := ⟨rfl, ht.stores, ht.history⟩

omit [DecidableEq H] [DecidableEq K] in
/-- A computation that changes nothing of a view leaves it as it is, if the calls that it makes do. -/
theorem run_keeps {Q : C → Prop} {callee : Callee C H K V M}
    (hcallee : ∀ c s o t, Q c → callee c s = some (o, t) → view t.memory = view s.memory)
    {a : A} (b : Computation C V M) (hb : b.Keeps view a) (hcalls : b.CallsOnly Q)
    {s t : Machine H K V M} (hs : view s.memory = a) {o : Outcome V}
    (h : b.run callee s = some (o, t)) : view t.memory = a := by
  induction b generalizing s with
  | done v =>
    obtain ⟨-, rfl⟩ := Prod.mk.inj (Option.some.inj h)
    exact hs
  | panic e =>
    obtain ⟨-, rfl⟩ := Prod.mk.inj (Option.some.inj h)
    exact hs
  | call c next ih =>
    simp only [Computation.run] at h
    cases hc : callee c s with
    | none => simp [hc] at h
    | some q =>
      obtain ⟨o', u⟩ := q
      have hu := hcallee c s o' u hcalls.1 hc
      rw [hc] at h
      exact ih o' (hb o') (hcalls.2 o') (hu.trans hs) h
  | read next ih => exact ih s.memory (hb s.memory hs) (hcalls s.memory) hs h
  | write m next ih => exact ih hb.2 hcalls hb.1 h

/-- After a call for another holder a machine agrees with the one from before, but for the memory. -/
theorem agree_of_other (hcalls : p.CallsOwnSide own) {n : Nat} {c : C} {s s' t : Machine H K V M} {o : Outcome V} (hc : own (p.holder c) = false)
    (hs : s.Agree fresh own view s') (h : p.call fresh n c s = some (o, t)) {m : M}
    (hm : view t.memory = view m) : t.Agree fresh own view { s' with memory := m } := by
  have ht := (others_stable hcalls s).call_preserves n c s o t hc (.refl s) h
  exact ⟨hm, fun i hi => (ht.stores i hi).trans (hs.stores i hi), ht.history.trans hs.history⟩

/-- Other calls leave the view of the memory as it is. -/
theorem Apart.call_keeps (hp : p.Apart own view)
    (hcalls : p.CallsOwnSide own)
    (n : Nat) (c : C) (s : Machine H K V M) (o : Outcome V) (t : Machine H K V M)
    (hc : own (p.holder c) = false) (h : p.call fresh n c s = some (o, t)) :
    view t.memory = view s.memory := by
  induction n generalizing c s o t with
  | zero => simp [call] at h
  | succ n ih =>
    have hothers := hcalls c
    rw [hc] at hothers
    rcases p.call_cases fresh h with ⟨v, -, -, rfl⟩ | ⟨-, ⟨e, hr, -⟩ | ⟨v, u, hr, -, rfl⟩⟩
    · rfl
    · exact run_keeps ih (p.body c) (hp.others c hc _) hothers (s := p.started fresh c s) rfl hr
    · exact run_keeps ih (p.body c) (hp.others c hc _) hothers (s := p.started fresh c s)
        (t := u) rfl hr

/-! ### Runs without other calls -/

/-- What is seen of one's own calls is what is seen if the other calls only do to the memory what
they do. -/
theorem watch_silence (hcalls : p.CallsOwnSide own) {n : Nat} {acts : List (Act C M)} {s s' u : Machine H K V M} {seen : List (Sight C H K V)}
    (hs : s.Agree fresh own id s') (h : p.watch fresh n acts s = some (seen, u)) :
    ∃ u', p.watch fresh n (p.silence fresh own n acts s) s' = some (p.ownSights own seen, u') ∧
      u.Agree fresh own id u' := by
  induction acts generalizing s s' seen with
  | nil =>
    obtain ⟨rfl, rfl⟩ := Prod.mk.inj (Option.some.inj h)
    exact ⟨s', rfl, hs⟩
  | cons act acts ih =>
    cases act with
    | change f => exact ih (hs.write (congrArg f hs.memory)) h
    | call c =>
      obtain ⟨o, t, rest, hc, hrest, rfl⟩ := watch_call h
      simp only [silence, hc]
      by_cases hown : own (p.holder c) = true
      · obtain ⟨t', ht', ht⟩ := (p.sees_id own).call_agree hcalls n c s s' o t hown hs hc
        obtain ⟨u', hu', hu⟩ := ih ht hrest
        refine ⟨u', ?_, hu⟩
        rw [if_pos hown, watch_of_call ht' hu', sight_eq hown o ht, ownSights_own hown]
      · have hother : own (p.holder c) = false := Bool.eq_false_iff.mpr hown
        obtain ⟨u', hu', hu⟩ := ih (agree_of_other hcalls hother hs hc rfl) hrest
        refine ⟨u', ?_, hu⟩
        rw [if_neg hown, ownSights_other hother]
        exact hu'

/-- What is seen of one's own calls is what is seen without the other calls, if they are apart. -/
theorem Apart.watch_filter (hp : p.Apart own view)
    (hcalls : p.CallsOwnSide own)
    {n : Nat} {acts : List (Act C M)} {s s' u : Machine H K V M} {seen : List (Sight C H K V)}
    (hacts : ∀ f, .change f ∈ acts → ∀ m m', view m = view m' → view (f m) = view (f m'))
    (hs : s.Agree fresh own view s') (h : p.watch fresh n acts s = some (seen, u)) :
    ∃ u', p.watch fresh n (acts.filter (p.isOwn own)) s' = some (p.ownSights own seen, u') ∧
      u.Agree fresh own view u' := by
  induction acts generalizing s s' seen with
  | nil =>
    obtain ⟨rfl, rfl⟩ := Prod.mk.inj (Option.some.inj h)
    exact ⟨s', rfl, hs⟩
  | cons act acts ih =>
    have hlater := fun f hf => hacts f (List.mem_cons_of_mem act hf)
    cases act with
    | change f => exact ih hlater (hs.write (hacts f List.mem_cons_self _ _ hs.memory)) h
    | call c =>
      obtain ⟨o, t, rest, hc, hrest, rfl⟩ := watch_call h
      by_cases hown : own (p.holder c) = true
      · obtain ⟨t', ht', ht⟩ := hp.call_agree hcalls n c s s' o t hown hs hc
        obtain ⟨u', hu', hu⟩ := ih hlater ht hrest
        refine ⟨u', ?_, hu⟩
        rw [List.filter_cons_of_pos (by exact hown), watch_of_call ht' hu', sight_eq hown o ht,
          ownSights_own hown]
      · have hother : own (p.holder c) = false := Bool.eq_false_iff.mpr hown
        have hm := (hp.call_keeps hcalls n c s o t hother hc).trans hs.memory
        obtain ⟨u', hu', hu⟩ := ih hlater (agree_of_other hcalls hother hs hc hm) hrest
        refine ⟨u', ?_, hu⟩
        rw [List.filter_cons_of_neg (by exact hown), ownSights_other hother]
        exact hu'

end Program

/-! ### The sites of the sample program -/

namespace Sample

/-- What the calls of a site look at in the memory. -/
def Site.view : Site → Memory → List UInt32 × Option Rectangle
  | .routine .drain, m => (m.list, none)
  | .routine _, _ => ([], none)
  | .rectangle i, m => ([], m.rectangles[i]?)

/-- Only `drain` looks at the list. -/
theorem Site.view_list {h : Site} (hne : h ≠ .routine .drain) (m : Memory) (l : List UInt32) :
    h.view { m with list := l } = h.view m := by
  cases h with
  | rectangle i => rfl
  | routine r => cases r <;> first | rfl | exact absurd rfl hne

/-- Only the methods of a rectangle look at it. -/
theorem Site.view_rectangles {h : Site} {i : Nat} (hne : h ≠ .rectangle i) (m : Memory)
    (r : Rectangle) : h.view { m with rectangles := m.rectangles.set i r } = h.view m := by
  cases h with
  | rectangle j =>
    have hij : i ≠ j := fun hij => hne (by rw [hij])
    simp only [Site.view, List.getElem?_set_ne hij]
  | routine r => cases r <;> rfl

/-- Bodies call functions of their own site only. -/
theorem callsOwnSide (own : Site → Bool) : program.CallsOwnSide own := by
  intro c
  cases c with
  | fib n => exact fibBody_callsOnly n fun m _ => rfl
  | ack k l =>
    change (ackBody k l).CallsOnly _
    unfold ackBody
    split
    · trivial
    · split <;> simp [Computation.callsOnly_callThen, Computation.CallsOnly, program, Call.site]
  | evenHalf k =>
    change (if k % 2 = 0 then _ else _ : Body).CallsOnly _
    split <;> trivial
  | scaledArea i scale =>
    intro m
    dsimp only
    split <;> trivial
  | grownArea i scale =>
    intro m
    dsimp only
    split <;> trivial
  | drain => exact fun m => trivial
  | _ => trivial

/-- The calls of a site look at nothing but its view. -/
theorem sees (h : Site) : program.Sees (fun i => decide (i = h)) h.view where
  key c hc m m' hm := by
    cases c with
    | drain =>
      obtain rfl : Site.routine .drain = h := of_decide_eq_true hc
      have hlist : m.list = m'.list := (Prod.mk.inj hm).1
      change [Part.numbers _] = [Part.numbers _]
      rw [hlist]
    | _ => rfl
  body c hc := by
    cases c with
    | fib n =>
      change (fibBody n).Alike _ (fibBody n)
      unfold fibBody
      split
      · exact .done _
      · exact .callThen _ fun _ => .callThen _ fun _ => .done _
    | ack k l =>
      change (ackBody k l).Alike _ (ackBody k l)
      unfold ackBody
      split
      · exact .done _
      · split
        · exact .callThen _ .done
        · exact .callThen _ fun _ => .callThen _ .done
    | evenHalf k =>
      change (if k % 2 = 0 then _ else _ : Body).Alike _ (if k % 2 = 0 then _ else _)
      split
      · exact .done _
      · exact .panic _
    | drain =>
      obtain rfl : Site.routine .drain = h := of_decide_eq_true hc
      refine .read fun m m' hm => .write rfl ?_
      have hlist : m.list = m'.list := (Prod.mk.inj hm).1
      rw [hlist]
      exact .done _
    | scaledArea i scale =>
      obtain rfl : Site.rectangle i = h := of_decide_eq_true hc
      refine .read fun m m' hm => ?_
      have hrect : m.rectangles[i]? = m'.rectangles[i]? := (Prod.mk.inj hm).2
      rw [hrect]
      split
      · exact .panic _
      · exact .done _
    | grownArea i scale =>
      obtain rfl : Site.rectangle i = h := of_decide_eq_true hc
      refine .read fun m m' hm => ?_
      have hrect : m.rectangles[i]? = m'.rectangles[i]? := (Prod.mk.inj hm).2
      rw [hrect]
      cases hr : m'.rectangles[i]? with
      | none => exact .panic _
      | some r =>
        refine .write ?_ (.done _)
        simp only [Site.view, List.getElem?_set_self', hrect]
    | _ => exact .done _

/-- The calls of a site change nothing of what others look at. -/
theorem apart (h : Site) : program.Apart (fun i => decide (i = h)) h.view where
  toSees := sees h
  others c hc a := by
    have hne : h ≠ c.site := fun hh => of_decide_eq_false hc hh.symm
    cases c with
    | fib n =>
      change (fibBody n).Keeps _ a
      unfold fibBody
      split
      · trivial
      · exact .callThen _ fun _ => .callThen _ fun _ => trivial
    | ack k l =>
      change (ackBody k l).Keeps _ a
      unfold ackBody
      split
      · trivial
      · split
        · exact .callThen _ fun _ => trivial
        · exact .callThen _ fun _ => .callThen _ fun _ => trivial
    | evenHalf k =>
      change (if k % 2 = 0 then _ else _ : Body).Keeps _ a
      split <;> trivial
    | drain => exact fun m hm => ⟨(Site.view_list hne m []).trans hm, trivial⟩
    | scaledArea i scale =>
      intro m hm
      dsimp only
      split <;> trivial
    | grownArea i scale =>
      intro m hm
      dsimp only
      split
      · trivial
      · exact ⟨(Site.view_rectangles hne m _).trans hm, trivial⟩
    | _ => trivial

end Sample

namespace Program

variable {p : Program C H K V M} {fresh : H → Store K V} {own : H → Bool}

/-- **Holders do not interfere.** Let bodies call functions on their own side only. What is seen of
one's own calls in a run, each with the store and the past of its holder, is what is seen if every
other call is replaced by what it does to the memory. If one's own calls look at a view of the memory
that the other calls leave alone, it is what is seen without the other calls. In both cases the stores
and the past of one's own holders end the same. -/
theorem holders_apart (hcalls : p.CallsOwnSide own) {n : Nat} {acts : List (Act C M)} {s u : Machine H K V M} {seen : List (Sight C H K V)}
    (h : p.watch fresh n acts s = some (seen, u)) :
    (∃ u', p.watch fresh n (p.silence fresh own n acts s) s = some (p.ownSights own seen, u') ∧
      u.Agree fresh own id u') ∧
    ∀ {A : Type} (view : M → A), p.Apart own view →
      (∀ f, .change f ∈ acts → ∀ m m', view m = view m' → view (f m) = view (f m')) →
      ∃ u', p.watch fresh n (acts.filter (p.isOwn own)) s = some (p.ownSights own seen, u') ∧
        u.Agree fresh own view u' :=
  ⟨watch_silence hcalls (.refl s) h,
    fun _ hp hacts => hp.watch_filter hcalls hacts (.refl s) h⟩

end Program

/-- Two routines have caches of one name and are called with one key, and two rectangles are called
with one scale, while a third one is made: without the calls of the other routine, and without those
on the other rectangle, the same is seen. -/
theorem holders_apart_from :
    (Sample.fresh (.routine .levelU8) = Sample.fresh (.routine .levelU16) ∧
      ∃ seen t u,
        Sample.program.watch Sample.fresh 1
          [.call (.levelU8 7), .call (.levelU16 7), .call (.levelU8 7)] (.initial ⟨[], []⟩) =
            some (seen, t) ∧
        Sample.program.watch Sample.fresh 1 [.call (.levelU8 7), .call (.levelU8 7)]
          (.initial ⟨[], []⟩) =
            some (Sample.program.ownSights (fun h => h = .routine .levelU8) seen, u)) ∧
    ∃ seen t u,
      Sample.program.watch Sample.fresh 1
        [.call (.grownArea 0 5), .call (.grownArea 1 5),
          .change fun m => { m with rectangles := m.rectangles ++ [⟨4, 4⟩] },
          .call (.scaledArea 1 7), .call (.scaledArea 0 5)]
        (.initial ⟨[], [⟨2, 3⟩, ⟨2, 3⟩]⟩) = some (seen, t) ∧
      Sample.program.watch Sample.fresh 1
        [.call (.grownArea 0 5),
          .change fun m => { m with rectangles := m.rectangles ++ [⟨4, 4⟩] },
          .call (.scaledArea 0 5)]
        (.initial ⟨[], [⟨2, 3⟩, ⟨2, 3⟩]⟩) =
          some (Sample.program.ownSights (fun h => h = .rectangle 0) seen, u) := by
  have hmade : ∀ m m' : Sample.Memory,
      Sample.Site.view (.rectangle 0) m = Sample.Site.view (.rectangle 0) m' →
        Sample.Site.view (.rectangle 0) { m with rectangles := m.rectangles ++ [⟨4, 4⟩] } =
          Sample.Site.view (.rectangle 0) { m' with rectangles := m'.rectangles ++ [⟨4, 4⟩] } := by
    rintro ⟨l, rs⟩ ⟨l', rs'⟩ hm
    cases rs <;> cases rs' <;> simp_all [Sample.Site.view]
  refine ⟨⟨rfl, ?_⟩, ?_⟩
  · obtain ⟨seen, t, hrun⟩ : ∃ seen t, Sample.program.watch Sample.fresh 1
        [.call (.levelU8 7), .call (.levelU16 7), .call (.levelU8 7)] (.initial ⟨[], []⟩) =
          some (seen, t) := ⟨_, _, rfl⟩
    obtain ⟨u, hu, -⟩ := (Program.holders_apart (Sample.callsOwnSide _) hrun).2 _
      (Sample.apart (.routine .levelU8)) (by simp)
    exact ⟨seen, t, u, hrun, hu⟩
  · obtain ⟨seen, t, hrun⟩ : ∃ seen t, Sample.program.watch Sample.fresh 1
        [.call (.grownArea 0 5), .call (.grownArea 1 5),
          .change fun m => { m with rectangles := m.rectangles ++ [⟨4, 4⟩] },
          .call (.scaledArea 1 7), .call (.scaledArea 0 5)]
        (.initial ⟨[], [⟨2, 3⟩, ⟨2, 3⟩]⟩) = some (seen, t) := ⟨_, _, rfl⟩
    obtain ⟨u, hu, -⟩ := (Program.holders_apart (Sample.callsOwnSide _) hrun).2 _
      (Sample.apart (.rectangle 0)) (by simpa using hmade)
    exact ⟨seen, t, u, hrun, hu⟩

end Memoize
