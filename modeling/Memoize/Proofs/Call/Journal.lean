import Memoize.Proofs.Call.Reach

/-!
# Journals of calls

The journal of a call lists what became of the calls nested in it and of the call itself, in the
order in which they end. Main statements: a relation between a machine, a journal and a later machine
that every move of a call keeps holds of whole calls and of runs (`Chronicle.call`,
`Chronicle.recorded`), and results that are stored stay and are what calls answer
(`answers_chronicle`).

## Implementation notes

A journal is read off the machine in which a call is made. It says nothing about calls that do not
end.
-/

namespace Memoize

/-- What became of a call that was made in a memory: its outcome, the memory that it left, whether
its body ran, and for which holders and keys bodies were under way when it was made. -/
structure Visit (C H K V M : Type) where
  call : C
  memory : M
  outcome : Outcome V
  left : M
  ran : Bool
  within : List (H × K)

variable {C H K V M : Type}

/-- The journal of a computation, `callee` running its calls and `nested` being their journals. -/
def Computation.journal (callee : Callee C H K V M)
    (nested : C → Machine H K V M → List (Visit C H K V M)) :
    Computation C V M → Machine H K V M → List (Visit C H K V M)
  | done _, _ => []
  | panic _, _ => []
  | call c next, s =>
    nested c s ++
      match callee c s with
      | none => []
      | some (o, t) => (next o).journal callee nested t
  | read next, s => (next s.memory).journal callee nested s
  | write m next, s => next.journal callee nested { s with memory := m }

namespace Program

/-- The holder of a call and the key under which it keeps its result. -/
def place (p : Program C H K V M) (c : C) (m : M) : H × K := (p.holder c, p.key c m)

/-- The holder and the key of a visit. -/
def placeOf (p : Program C H K V M) (q : Visit C H K V M) : H × K := p.place q.call q.memory

variable [DecidableEq H] [DecidableEq K]

/-- Whether a call finds a result. -/
def finds (p : Program C H K V M) (fresh : H → Store K V) (c : C) (s : Machine H K V M) : Bool :=
  ((s.store fresh (p.holder c)).entries.get? (p.key c s.memory)).isSome

/-- The journal of the body that a call may run, `callee` running its calls and `journal` being their
journals. -/
def bodyJournal (p : Program C H K V M) (fresh : H → Store K V) (callee : Callee C H K V M)
    (journal : C → Machine H K V M → List (Visit C H K V M)) (c : C) (s : Machine H K V M) :
    List (Visit C H K V M) :=
  if p.finds fresh c s then [] else (p.body c).journal callee journal (p.started fresh c s)

/-- The journal of a call that is made while bodies are under way for `within`. -/
def journal (p : Program C H K V M) (fresh : H → Store K V) :
    (depth : Nat) → (within : List (H × K)) → C → Machine H K V M → List (Visit C H K V M)
  | 0, _, _, _ => []
  | n + 1, w, c, s =>
    p.bodyJournal fresh (p.call fresh n) (p.journal fresh n (p.place c s.memory :: w)) c s ++
      match p.call fresh (n + 1) c s with
      | none => []
      | some (o, t) => [⟨c, s.memory, o, t.memory, !p.finds fresh c s, w⟩]

/-- The journal of the calls nested in a call that is made while no body is under way. -/
def nested (p : Program C H K V M) (fresh : H → Store K V) :
    (depth : Nat) → C → Machine H K V M → List (Visit C H K V M)
  | 0, _, _ => []
  | n + 1, c, s => p.bodyJournal fresh (p.call fresh n) (p.journal fresh n [p.place c s.memory]) c s

variable (p : Program C H K V M) (fresh : H → Store K V)

/-- Runs of calls with their journals; between calls the memory may change. -/
inductive Recorded : Machine H K V M → List (Visit C H K V M) → Machine H K V M → Prop
  | done (s : Machine H K V M) : Recorded s [] s
  | call {n : Nat} {c : C} {o : Outcome V} {s t u : Machine H K V M}
      {vs : List (Visit C H K V M)} (h : p.call fresh n c s = some (o, t)) (tail : Recorded t vs u) :
      Recorded s (p.journal fresh n [] c s ++ vs) u
  | memory {m : M} {s u : Machine H K V M} {vs : List (Visit C H K V M)}
      (tail : Recorded { s with memory := m } vs u) : Recorded s vs u

/-- Every move of a call keeps a relation between a machine, a journal and a later machine, while
bodies are under way. -/
structure Chronicle
    (R : List (H × K) → Machine H K V M → List (Visit C H K V M) → Machine H K V M → Prop) :
    Prop where
  done : ∀ w s, R w s [] s
  append : ∀ w s t u vs ws, R w s vs t → R w t ws u → R w s (vs ++ ws) u
  write : ∀ w s m, R w s [] { s with memory := m }
  hit : ∀ w c s v,
    (s.store fresh (p.holder c)).entries.get? (p.key c s.memory) = some v →
      R w s [⟨c, s.memory, .value v, s.memory, false, w⟩] (p.asked fresh c s)
  panicked : ∀ w c s e u vs,
    (s.store fresh (p.holder c)).entries.get? (p.key c s.memory) = none →
      R (p.place c s.memory :: w) (p.started fresh c s) vs u →
      R w s (vs ++ [⟨c, s.memory, .panicked e, u.memory, true, w⟩]) u
  kept : ∀ w c s v u vs,
    (s.store fresh (p.holder c)).entries.get? (p.key c s.memory) = none →
      R (p.place c s.memory :: w) (p.started fresh c s) vs u →
      R w s (vs ++ [⟨c, s.memory, .value v, u.memory, true, w⟩])
        (Program.kept fresh (p.holder c) (p.key c s.memory) v u)

variable {p fresh}

/-- The journal of a call that finds a result. -/
theorem journal_of_found {n : Nat} {w : List (H × K)} {c : C} {s : Machine H K V M} {v : V}
    (h : (s.store fresh (p.holder c)).entries.get? (p.key c s.memory) = some v) :
    p.journal fresh (n + 1) w c s = [⟨c, s.memory, .value v, s.memory, false, w⟩] := by
  have hcall : p.call fresh (n + 1) c s = some (.value v, p.asked fresh c s) := by
    rw [call_succ, h]
  simp only [journal, bodyJournal, finds, h, hcall, Option.isSome_some, if_true, Bool.not_true,
    List.nil_append]
  rfl

/-- The journal of a call whose body runs ends with the call. -/
theorem journal_of_missing {n : Nat} {w : List (H × K)} {c : C} {s t : Machine H K V M}
    {o : Outcome V} (h : (s.store fresh (p.holder c)).entries.get? (p.key c s.memory) = none)
    (hcall : p.call fresh (n + 1) c s = some (o, t)) :
    p.journal fresh (n + 1) w c s =
      (p.body c).journal (p.call fresh n) (p.journal fresh n (p.place c s.memory :: w))
        (p.started fresh c s) ++ [⟨c, s.memory, o, t.memory, true, w⟩] := by
  simp only [journal, bodyJournal, finds, h, hcall, Option.isSome_none, Bool.false_eq_true, if_false,
    Bool.not_false]

namespace Chronicle

variable {R : List (H × K) → Machine H K V M → List (Visit C H K V M) → Machine H K V M → Prop}

/-- What calls keep is kept by the computations that make them. -/
theorem run (hR : p.Chronicle fresh R) {w : List (H × K)} {callee : Callee C H K V M}
    {nested : C → Machine H K V M → List (Visit C H K V M)}
    (hcallee : ∀ c s o t, callee c s = some (o, t) → R w s (nested c s) t)
    (b : Computation C V M) (s : Machine H K V M) {o : Outcome V} {t : Machine H K V M}
    (h : b.run callee s = some (o, t)) : R w s (b.journal callee nested s) t := by
  induction b generalizing s with
  | done v =>
    obtain ⟨-, rfl⟩ := Prod.mk.inj (Option.some.inj h)
    exact hR.done w s
  | panic e =>
    obtain ⟨-, rfl⟩ := Prod.mk.inj (Option.some.inj h)
    exact hR.done w s
  | call c next ih =>
    simp only [Computation.run] at h
    simp only [Computation.journal]
    cases hc : callee c s with
    | none => simp [hc] at h
    | some q =>
      obtain ⟨o', u⟩ := q
      rw [hc] at h
      exact hR.append w s u t _ _ (hcallee c s o' u hc) (ih o' u h)
  | read next ih => exact ih s.memory s h
  | write m next ih =>
    exact hR.append w s { s with memory := m } t [] _ (hR.write w s m) (ih _ h)

/-- What the moves of calls keep is kept by whole calls. -/
theorem call (hR : p.Chronicle fresh R) (n : Nat) (w : List (H × K)) (c : C) (s : Machine H K V M)
    (o : Outcome V) (t : Machine H K V M) (h : p.call fresh n c s = some (o, t)) :
    R w s (p.journal fresh n w c s) t := by
  induction n generalizing w c s o t with
  | zero => simp [Program.call] at h
  | succ n ih =>
    rcases p.call_cases fresh h with ⟨v, hv, rfl, rfl⟩ | ⟨hv, ⟨e, hr, rfl⟩ | ⟨v, u, hr, rfl, rfl⟩⟩
    · rw [journal_of_found hv]
      exact hR.hit w c s v hv
    · rw [journal_of_missing hv h]
      exact hR.panicked w c s e t _ hv (hR.run (ih _) (p.body c) _ hr)
    · rw [journal_of_missing hv h]
      exact hR.kept w c s v u _ hv (hR.run (ih _) (p.body c) _ hr)

/-- What the moves of calls keep is kept by the body of a call that panics. -/
theorem nested (hR : p.Chronicle fresh R) {n : Nat} {c : C} {s t : Machine H K V M} {e : String}
    (h : p.call fresh n c s = some (.panicked e, t)) :
    R [p.place c s.memory] (p.started fresh c s) (p.nested fresh n c s) t := by
  cases n with
  | zero => simp [Program.call] at h
  | succ n =>
    rcases p.call_cases fresh h with ⟨v, -, ho, -⟩ | ⟨hv, ⟨e', hr, -⟩ | ⟨v, u, -, ho, -⟩⟩
    · cases ho
    · have hnested := hR.run (hR.call n [p.place c s.memory]) (p.body c) _ hr
      simpa only [Program.nested, bodyJournal, finds, hv, Option.isSome_none, Bool.false_eq_true,
        if_false] using hnested
    · cases ho

/-- What the moves of calls keep is kept by runs. -/
theorem recorded (hR : p.Chronicle fresh R) {s t : Machine H K V M} {vs : List (Visit C H K V M)}
    (h : p.Recorded fresh s vs t) : R [] s vs t := by
  induction h with
  | done s => exact hR.done [] s
  | call h tail ih => exact hR.append [] _ _ _ _ _ (hR.call _ [] _ _ _ _ h) ih
  | @memory m s u vs tail ih => exact hR.append [] s _ u [] vs (hR.write [] s m) ih

end Chronicle

/-! ### Visits are calls -/

/-- A visit tells what a call did. -/
def Made (p : Program C H K V M) (fresh : H → Store K V) (q : Visit C H K V M) : Prop :=
  ∃ n s t, p.call fresh n q.call s = some (q.outcome, t) ∧ s.memory = q.memory ∧
    t.memory = q.left ∧ q.ran = !p.finds fresh q.call s

omit [DecidableEq H] [DecidableEq K] in
/-- What is in the journal of a computation is in the journal of one of its calls. -/
theorem exists_of_mem_journal {callee : Callee C H K V M}
    {nested : C → Machine H K V M → List (Visit C H K V M)} (b : Computation C V M)
    (s : Machine H K V M) {q : Visit C H K V M} (h : q ∈ b.journal callee nested s) :
    ∃ c t, q ∈ nested c t := by
  induction b generalizing s with
  | done v => cases h
  | panic e => cases h
  | call c next ih =>
    simp only [Computation.journal, List.mem_append] at h
    rcases h with h | h
    · exact ⟨c, s, h⟩
    · cases hc : callee c s with
      | none => simp [hc] at h
      | some r =>
        rw [hc] at h
        exact ih r.1 r.2 h
  | read next ih => exact ih s.memory s h
  | write m next ih => exact ih _ h

/-- The journal of a call tells what calls did. -/
theorem made_of_mem_journal {n : Nat} {w : List (H × K)} {c : C} {s : Machine H K V M}
    {q : Visit C H K V M} (h : q ∈ p.journal fresh n w c s) : p.Made fresh q := by
  induction n generalizing w c s with
  | zero => cases h
  | succ n ih =>
    rw [journal, List.mem_append] at h
    rcases h with h | h
    · unfold bodyJournal at h
      split at h
      · cases h
      · obtain ⟨d, t, hq⟩ := exists_of_mem_journal (p.body c) _ h
        exact ih hq
    · cases hcall : p.call fresh (n + 1) c s with
      | none => simp [hcall] at h
      | some r =>
        rw [hcall] at h
        obtain rfl := List.mem_singleton.mp h
        exact ⟨n + 1, s, r.2, hcall, rfl, rfl, rfl⟩

/-- The journal of a run tells what calls did. -/
theorem Recorded.made {s t : Machine H K V M} {vs : List (Visit C H K V M)}
    (h : p.Recorded fresh s vs t) : ∀ q ∈ vs, p.Made fresh q := by
  induction h with
  | done s => exact fun q hq => by cases hq
  | call h tail ih =>
    exact fun q hq => (List.mem_append.mp hq).elim made_of_mem_journal (ih q)
  | memory tail ih => exact ih

/-- Every run has a journal. -/
theorem Run.recorded {s t : Machine H K V M} {cs : List C} (h : p.Run fresh s cs t) :
    ∃ vs, p.Recorded fresh s vs t := by
  induction h with
  | done s => exact ⟨[], .done s⟩
  | call h tail ih =>
    obtain ⟨vs, hvs⟩ := ih
    exact ⟨_, .call h hvs⟩
  | memory tail ih =>
    obtain ⟨vs, hvs⟩ := ih
    exact ⟨vs, .memory hvs⟩

end Program

/-! ### Stored results stay -/

variable [DecidableEq H] [DecidableEq K]

/-- A machine has a result for a holder and a key. -/
def Machine.Has (fresh : H → Store K V) (s : Machine H K V M) (a : H × K) (v : V) : Prop :=
  (s.store fresh a.1).entries.get? a.2 = some v

namespace Program

variable {p : Program C H K V M} {fresh : H → Store K V}

/-- Asking a store changes no result. -/
theorem has_asked {c : C} {s : Machine H K V M} {a : H × K} {v : V} :
    (p.asked fresh c s).Has fresh a v ↔ s.Has fresh a v := by
  rw [Machine.Has, entries_asked, Machine.Has]

/-- Starting a body changes no result. -/
theorem has_started {c : C} {s : Machine H K V M} {a : H × K} {v : V} :
    (p.started fresh c s).Has fresh a v ↔ s.Has fresh a v :=
  has_asked

/-- A result that is kept is there. -/
theorem has_kept_self {h : H} {k : K} {v : V} {s : Machine H K V M} :
    (kept fresh h k v s).Has fresh (h, k) v := by
  rw [Machine.Has, entries_kept, Entries.get?_insert_self]

/-- Keeping a result changes no other. -/
theorem has_kept_of_ne {h : H} {k : K} {v x : V} {s : Machine H K V M} {a : H × K}
    (hne : a ≠ (h, k)) : (kept fresh h k v s).Has fresh a x ↔ s.Has fresh a x := by
  obtain ⟨i, l⟩ := a
  by_cases hi : i = h
  · subst hi
    have hl : l ≠ k := fun hl => hne (by rw [hl])
    rw [Machine.Has, entries_kept, Entries.get?_insert_of_ne hl, Machine.Has]
  · rw [Machine.Has, store_kept_of_ne fresh hi, Machine.Has]

/-- A call that misses is for no holder and key that has a result. -/
theorem place_ne_of_has {c : C} {s : Machine H K V M} {a : H × K} {v : V}
    (hc : (s.store fresh (p.holder c)).entries.get? (p.key c s.memory) = none)
    (ha : s.Has fresh a v) : p.place c s.memory ≠ a := by
  rintro rfl
  exact absurd (hc.symm.trans ha) (by simp)

/-- If a result is stored, it stays, and the calls of a journal that are for it answer it without
running their bodies. -/
def Answers (p : Program C H K V M) (fresh : H → Store K V) (a : H × K) (_ : List (H × K))
    (s : Machine H K V M) (vs : List (Visit C H K V M)) (t : Machine H K V M) : Prop :=
  ∀ v, s.Has fresh a v →
    t.Has fresh a v ∧ ∀ q ∈ vs, p.placeOf q = a → q.outcome = .value v ∧ q.ran = false

/-- Whatever calls do, they answer the results that are stored. -/
theorem answers_chronicle (a : H × K) : p.Chronicle fresh (p.Answers fresh a) where
  done w s v h := ⟨h, fun q hq => nomatch hq⟩
  append w s t u vs ws hst htu v h := by
    obtain ⟨ht, hvs⟩ := hst v h
    obtain ⟨hu, hws⟩ := htu v ht
    exact ⟨hu, fun q hq => (List.mem_append.mp hq).elim (hvs q) (hws q)⟩
  write w s m v h := ⟨h, fun q hq => nomatch hq⟩
  hit w c s v hv x h := by
    refine ⟨has_asked.mpr h, fun q hq hqa => ?_⟩
    obtain rfl := List.mem_singleton.mp hq
    subst hqa
    exact ⟨congrArg Outcome.value (Option.some.inj (hv.symm.trans h)), rfl⟩
  panicked w c s e u vs hv hsu x h := by
    obtain ⟨hu, hvs⟩ := hsu x (has_started.mpr h)
    refine ⟨hu, fun q hq hqa => ?_⟩
    rcases List.mem_append.mp hq with hq | hq
    · exact hvs q hq hqa
    · obtain rfl := List.mem_singleton.mp hq
      exact absurd hqa (place_ne_of_has hv h)
  kept w c s v u vs hv hsu x h := by
    obtain ⟨hu, hvs⟩ := hsu x (has_started.mpr h)
    refine ⟨(has_kept_of_ne (Ne.symm (place_ne_of_has hv h))).mpr hu, fun q hq hqa => ?_⟩
    rcases List.mem_append.mp hq with hq | hq
    · exact hvs q hq hqa
    · obtain rfl := List.mem_singleton.mp hq
      exact absurd hqa (place_ne_of_has hv h)

end Program

/-- A function without arguments whose body calls the function again when it runs first, and goes on
with the outcome; when it runs later it ends with one. The memory tells whether the body has run. -/
def selfCalling (next : Outcome Nat → Computation Unit Nat Bool) :
    Program Unit Unit Unit Nat Bool where
  holder _ := ()
  key _ _ := ()
  body _ := .read fun hasRun => if hasRun then .done 1 else .write true (.call () next)

end Memoize
