import Memoize.Call.Body
import Memoize.Proofs.Call.FirstResult
import Memoize.Proofs.Function.HolderLifetimes
import Memoize.Proofs.Function.Keys

/-!
# Keys of calls at work

The body of a memoized function, executed part by part on variables that its statements may change,
does what a memoized call does (`Library.run_eq_call`). Main statement: both the key that is looked
up and the one that the result is kept under are the values that the arguments stood for when the
call started, and a call that finds a result leaves the memory as it was (`Library.key_at_entry`).
So a function that empties the list it is passed a reference to empties each list once
(`Library.key_at_entry_drain`).

## Implementation notes

A list is seen for the first time by the first call for it to end that was not made within a body
for the same list.
-/

namespace Memoize

open TokenTree Code

/-! ### Variables at the start -/

/-- The parts of the key of a memoized function are those of the names in its signature. -/
theorem Written.bindings (w : Written) :
    w.memoized.body.parts.map KeyPart.binding = w.memoized.signature.names := by
  obtain ⟨args, s, body, names, owner?, names', h⟩ := w.written
  obtain ⟨p, site, haccept, -, -, hm⟩ := Memoized.parts_eq_ok_iff.mp h
  obtain ⟨-, hextract, -⟩ := Memoized.accept_eq_ok_iff.mp haccept
  obtain ⟨-, ps, output, hps, -, rfl⟩ := Memoized.extract_eq_ok_iff.mp hextract
  obtain ⟨hnames, -⟩ := Parameters.paramsFrom_rebindFrom hps
  rw [hm]
  -- Both lists of names are read off the inputs with the names put in.
  change (keyParts ps).map KeyPart.binding =
    ((Parameters.rebindFrom s.inputs ps).filterMap fun i => i.1.typed?).filterMap fun i =>
      i.1.plain?
  rw [keyParts, List.map_map]
  generalize (Parameters.rebindFrom s.inputs ps).filterMap (fun i => i.1.typed?) = typed at hnames
  clear hps haccept hextract h hm
  induction hnames with
  | nil => rfl
  | @cons i p is ps hi _ ih =>
    rw [List.map_cons, List.filterMap_cons, hi.1, ih, Function.comp_apply,
      KeyPart.binding_ofParam]

/-- The variable of a name among others is what the name is paired with. -/
theorem Entries.get?_zip_append {K V : Type} [DecidableEq K] {ks : List K} {vs : List V} {k : K}
    {v : V} (hnodup : ks.Nodup) (h : (k, v) ∈ ks.zip vs) (rest : Entries K V) :
    Entries.get? k (ks.zip vs ++ rest) = some v := by
  induction ks generalizing vs with
  | nil => simp at h
  | cons l ks ih =>
    obtain ⟨hl, hnodup⟩ := List.nodup_cons.mp hnodup
    cases vs with
    | nil => simp at h
    | cons w vs =>
      rw [List.zip_cons_cons, List.mem_cons] at h
      rw [List.zip_cons_cons, List.cons_append, Entries.get?]
      rcases h with heq | h
      · obtain ⟨rfl, rfl⟩ := Prod.mk.inj heq
        rw [if_pos rfl]
      · rw [if_neg fun hlk : l = k => hl (hlk ▸ (List.of_mem_zip h).1)]
        exact ih hnodup h

section Variables

variable {L D : Type}

/-- The copies for parts of a key are the values that fitting variables stand for. -/
theorem copies?_eq_some {m : Memory L D} {ks : List KeyPart} {as : List (Content L D)}
    (hfits : List.Forall₂ (fun k a => a.fits k.ownership) ks as)
    (hvariables : ∀ k a, (k, a) ∈ ks.zip as → m.content? k.binding = some a) :
    copies? m ks = some (as.map (Content.read m.places)) := by
  induction hfits with
  | nil => rfl
  | @cons k a ks as hfit _ ih =>
    have hcopy : k.copy? m = some (a.read m.places) := by
      have ha := hvariables k a (by simp)
      unfold KeyPart.copy?
      cases hk : k.ownership <;> cases a <;> simp_all [Content.fits, Content.read]
    rw [copies?, hcopy, ih fun k a h => hvariables k a (List.mem_cons_of_mem _ h)]
    rfl

variable {F : Type} {code : F → Written}

/-- When a call starts, the copies for its key are the values that its arguments stand for. -/
theorem FunctionCall.copies?_enter (c : FunctionCall code L D) (m : Memory L D) :
    copies? (m.enter c.frame) c.callee.body.parts = some (c.values m) := by
  -- The receiver comes after the parameters, so that it hides none of them.
  refine copies?_eq_some c.fits fun k a h => ?_
  have hnames := (code c.function).bindings
  have hmem : (k.binding, a) ∈ c.callee.signature.names.zip c.arguments := by
    rw [callee, ← hnames, List.zip_map_left]
    exact List.mem_map_of_mem h
  exact Entries.get?_zip_append (code c.function).distinct hmem _

end Variables

/-! ### Execution -/

/-- A computation with a last change of the memory ends like the computation itself. -/
theorem Computation.run_ending {C H K V M : Type} (last : M → M) (callee : Callee C H K V M)
    (b : Computation C V M) (s : Machine H K V M) :
    (b.ending last).run callee s =
      (b.run callee s).map fun r => (r.1, { r.2 with memory := last r.2.memory }) := by
  induction b generalizing s with
  | done v => rfl
  | panic t => rfl
  | call c next ih =>
    simp only [ending, Computation.run]
    cases callee c s with
    | none => rfl
    | some r => exact ih r.1 r.2
  | read next ih => exact ih s.memory s
  | write m next ih => exact ih { s with memory := m }

namespace Library

variable {F H V L D : Type} {code : F → Written} [DecidableEq H] [DecidableEq D]
variable (lib : Library code H V L D) (fresh : H → Store (List D) V)

omit [DecidableEq H] [DecidableEq D] in
/-- The statements of a call run with its variables. -/
theorem run_body (callee : Runs code H V L D) (c : FunctionCall code L D) (s : State H V L D) :
    (lib.program.body c).run callee s =
      ((lib.original c.function).run callee { s with memory := s.memory.enter c.frame }).map
        fun r => (r.1, { r.2 with memory := r.2.memory.leave }) :=
  Computation.run_ending Memory.leave callee (lib.original c.function) _

section Parts

variable {lib fresh} {callee : Runs code H V L D} {c : FunctionCall code L D} {i : BodyPart}
  {rest : List BodyPart} {l l' : Locals (List D) V} {s t : State H V L D}

theorem executeAll_next (h : lib.execute fresh callee c i l s = some (.next l' t)) :
    lib.executeAll fresh callee c (i :: rest) l s = lib.executeAll fresh callee c rest l' t := by
  rw [executeAll, h]

theorem executeAll_ended {o : Outcome V}
    (h : lib.execute fresh callee c i l s = some (.ended o t)) :
    lib.executeAll fresh callee c (i :: rest) l s = some (o, t) := by
  rw [executeAll, h]

/-- A body that asks its holder for the values that its arguments stand for ends if there is a
result, and goes on otherwise. -/
theorem executeAll_entered :
    lib.executeAll fresh callee c BodyPart.all ⟨none, none⟩
        { s with memory := s.memory.enter c.frame } =
      match ((s.store fresh (lib.holderOf c)).get (c.values s.memory)).answer with
      | some v => some (.value v,
          { lib.program.asked fresh c s with memory := s.memory.enter c.frame })
      | none => lib.executeAll fresh callee c [.runOriginal, .keepResult, .answerResult]
          ⟨some (c.values s.memory), none⟩
          { lib.program.asked fresh c s with memory := s.memory.enter c.frame } := by
  have hkey : lib.execute fresh callee c .makeKey ⟨none, none⟩
      { s with memory := s.memory.enter c.frame } =
        some (.next ⟨some (c.values s.memory), none⟩
          { s with memory := s.memory.enter c.frame }) := by
    rw [execute, c.copies?_enter s.memory]
    rfl
  have hask : lib.execute fresh callee c .answerFound ⟨some (c.values s.memory), none⟩
      { s with memory := s.memory.enter c.frame } =
        some (match ((s.store fresh (lib.holderOf c)).get (c.values s.memory)).answer with
          | some v => .ended (.value v)
              { lib.program.asked fresh c s with memory := s.memory.enter c.frame }
          | none => .next ⟨some (c.values s.memory), none⟩
              { lib.program.asked fresh c s with memory := s.memory.enter c.frame }) := by
    rw [execute, Option.map_some]
    rfl
  rw [BodyPart.all, executeAll_next hkey]
  cases hanswer : ((s.store fresh (lib.holderOf c)).get (c.values s.memory)).answer with
  | some v => exact executeAll_ended (by rw [hask, hanswer])
  | none => exact executeAll_next (by rw [hask, hanswer])

/-- A body that goes on runs its statements and keeps their result under the key that it has. -/
theorem executeAll_missed {k : List D} :
    lib.executeAll fresh callee c [.runOriginal, .keepResult, .answerResult] ⟨some k, none⟩ s =
      ((lib.original c.function).run callee (s.note .started (lib.holderOf c) k)).map
        (Program.keep fresh (lib.holderOf c) k) := by
  cases hrun : (lib.original c.function).run callee (s.note .started (lib.holderOf c) k) with
  | none => simp [executeAll, execute, hrun]
  | some r =>
    obtain ⟨o, u⟩ := r
    cases o with
    | panicked t =>
      refine executeAll_ended ?_
      rw [execute, Option.bind_some, hrun]
      rfl
    | value v =>
      have hvalue : lib.execute fresh callee c .runOriginal ⟨some k, none⟩ s =
          some (.next ⟨some k, some v⟩ u) := by
        rw [execute, Option.bind_some, hrun]
        rfl
      rw [executeAll_next hvalue]
      rfl

end Parts

/-- Executing the body of a call part by part is a memoized call. -/
theorem invoke_eq_step (callee : Runs code H V L D) :
    lib.invoke fresh callee = lib.program.step fresh callee := by
  funext c s
  rw [invoke, executeAll_entered]
  change _ = match ((s.store fresh (lib.holderOf c)).get (c.values s.memory)).answer with
    | some v => some (Outcome.value v, lib.program.asked fresh c s)
    | none => ((lib.program.body c).run callee (lib.program.started fresh c s)).map
        (Program.keep fresh (lib.holderOf c) (c.values s.memory))
  cases ((s.store fresh (lib.holderOf c)).get (c.values s.memory)).answer with
  | some v => rfl
  | none =>
    dsimp only
    rw [executeAll_missed, run_body, Option.map_map, Option.map_map]
    -- Keeping a result and leaving the memory do not meet.
    refine congrArg (fun f => Option.map f _) (funext fun r => ?_)
    obtain ⟨o, u⟩ := r
    cases o <;> rfl

/-- Executing the bodies of calls, nested ones included, is making memoized calls. -/
theorem run_eq_call (n : Nat) : lib.run fresh n = lib.program.call fresh n := by
  induction n with
  | zero => rfl
  | succ n ih => rw [run, ih, invoke_eq_step, Program.call]

end Library

/-! ### Results that are found -/

namespace Program

variable {C H K V M : Type} [DecidableEq H] [DecidableEq K]
variable {p : Program C H K V M} {fresh : H → Store K V}

/-- A journal has a body for a holder and a key that was started within no other body for them. -/
def RanFor (p : Program C H K V M) (a : H × K) (vs : List (Visit C H K V M)) : Prop :=
  ∃ q ∈ vs, p.placeOf q = a ∧ a ∉ q.within ∧ q.ran = true

/-- If there is no result for a holder and a key, and no body for them is under way, then one that
is stored or found later is due to a body that was started for them. -/
structure Explains (p : Program C H K V M) (fresh : H → Store K V) (a : H × K) (w : List (H × K))
    (s : Machine H K V M) (vs : List (Visit C H K V M)) (t : Machine H K V M) : Prop where
  within : ∀ q ∈ vs, w ⊆ q.within
  stored : a ∉ w → (∀ v, ¬ s.Has fresh a v) → ∀ v, t.Has fresh a v → p.RanFor a vs
  found : a ∉ w → (∀ v, ¬ s.Has fresh a v) → ∀ before r after, vs = before ++ r :: after →
    p.placeOf r = a → a ∉ r.within → r.ran = false → p.RanFor a before

/-- Starting a body changes no result. -/
theorem Explains.of_started {a : H × K} {w : List (H × K)} {c : C} {s u : Machine H K V M}
    {vs : List (Visit C H K V M)} (h : p.Explains fresh a w (p.started fresh c s) vs u) :
    p.Explains fresh a w s vs u :=
  ⟨h.within, fun ha hs => h.stored ha fun v hv => hs v (has_started.mp hv),
    fun ha hs => h.found ha fun v hv => hs v (has_started.mp hv)⟩

/-- An element of two lists in a row is in the first or in the second. -/
theorem split_append {α : Type} {l₁ l₂ before after : List α} {x : α}
    (h : l₁ ++ l₂ = before ++ x :: after) :
    (∃ new, l₁ = before ++ x :: new) ∨ ∃ new, before = l₁ ++ new ∧ l₂ = new ++ x :: after := by
  rcases List.append_eq_append_iff.mp h with ⟨new, hbefore, hnew⟩ | ⟨new, hfirst, hnew⟩
  · exact Or.inr ⟨new, hbefore, hnew⟩
  · cases new with
    | nil => exact Or.inr ⟨[], by simpa using hfirst.symm, hnew.symm⟩
    | cons y new =>
      obtain ⟨rfl, -⟩ := List.cons.inj hnew
      exact Or.inl ⟨new, hfirst⟩

/-- A call whose body ran explains what is stored for it, and its body what is stored for others. -/
theorem Explains.concat {a : H × K} {w : List (H × K)} {s t u : Machine H K V M}
    {vs : List (Visit C H K V M)} {q : Visit C H K V M}
    (h : p.Explains fresh a (p.placeOf q :: w) s vs u) (hwithin : q.within = w)
    (hran : q.ran = true) (ht : a ≠ p.placeOf q → ∀ v, t.Has fresh a v → u.Has fresh a v) :
    p.Explains fresh a w s (vs ++ [q]) t := by
  refine ⟨fun r hr => ?_, fun ha hs v hv => ?_, fun ha hs before r after hsplit hr har hfound => ?_⟩
  · rcases List.mem_append.mp hr with hr | hr
    · exact List.Subset.trans (List.subset_cons_self _ w) (h.within r hr)
    · obtain rfl := List.mem_singleton.mp hr
      exact fun _ hb => hwithin ▸ hb
  · by_cases hq : a = p.placeOf q
    · exact ⟨q, by simp, hq.symm, hwithin ▸ ha, hran⟩
    · obtain ⟨r, hr, hrest⟩ := h.stored (by simp [hq, ha]) hs v (ht hq v hv)
      exact ⟨r, List.mem_append_left _ hr, hrest⟩
  · rcases split_append hsplit with ⟨new, rfl⟩ | ⟨new, rfl, hnew⟩
    · -- The call that found a result is one of the body, which is for another holder or key.
      have hne : a ∉ p.placeOf q :: w := fun hmem => har (h.within r (by simp) hmem)
      exact h.found hne hs before r new rfl hr har hfound
    · have hmem : r ∈ [q] := by simp [hnew]
      obtain rfl := List.mem_singleton.mp hmem
      rw [hran] at hfound
      cases hfound

/-- Results that are stored or found are due to bodies. -/
theorem explains_chronicle (a : H × K) : p.Chronicle fresh (p.Explains fresh a) where
  done w s := ⟨nofun, fun _ hs v hv => absurd hv (hs v), fun _ _ before r after hsplit =>
    absurd hsplit (by simp)⟩
  append w s t u vs ws hst htu := by
    -- A result that is there in between is due to the first calls.
    have hbetween : a ∉ w → (∀ v, ¬ s.Has fresh a v) → ∀ new,
        ((∀ v, ¬ t.Has fresh a v) → p.RanFor a new) → p.RanFor a (vs ++ new) := by
      intro ha hs new hnew
      by_cases ht : ∃ x, t.Has fresh a x
      · obtain ⟨x, hx⟩ := ht
        obtain ⟨q, hq, hrest⟩ := hst.stored ha hs x hx
        exact ⟨q, List.mem_append_left _ hq, hrest⟩
      · obtain ⟨q, hq, hrest⟩ := hnew (not_exists.mp ht)
        exact ⟨q, List.mem_append_right _ hq, hrest⟩
    refine ⟨fun q hq => (List.mem_append.mp hq).elim (hst.within q) (htu.within q),
      fun ha hs v hv => hbetween ha hs ws fun ht => htu.stored ha ht v hv,
      fun ha hs before r after hsplit hr har hfound => ?_⟩
    rcases split_append hsplit with ⟨new, rfl⟩ | ⟨new, rfl, hnew⟩
    · exact hst.found ha hs before r new rfl hr har hfound
    · exact hbetween ha hs new fun ht => htu.found ha ht new r after hnew hr har hfound
  write w s m := ⟨nofun, fun _ hs v hv => absurd hv (hs v), fun _ _ before r after hsplit =>
    absurd hsplit (by simp)⟩
  hit w c s v hv := by
    refine ⟨fun q hq => ?_, fun _ hs x hx => absurd (has_asked.mp hx) (hs x),
      fun _ hs before r after hsplit hr _ _ => ?_⟩
    · obtain rfl := List.mem_singleton.mp hq
      exact List.Subset.refl w
    · have hmem : r ∈ [(⟨c, s.memory, .value v, s.memory, false, w⟩ : Visit C H K V M)] := by
        simp [hsplit]
      obtain rfl := List.mem_singleton.mp hmem
      subst hr
      exact absurd hv (hs v)
  panicked w c s e u vs hv hsu := hsu.of_started.concat rfl rfl fun _ _ hx => hx
  kept w c s v u vs hv hsu :=
    hsu.of_started.concat rfl rfl fun hne _ hx => (has_kept_of_ne hne).mp hx

/-- The first call for a holder and a key runs its body. If this ends with a value, the value is
stored, and later calls answer it and leave the memory as it was. -/
theorem Recorded.of_first {s t : Machine H K V M} {vs before after : List (Visit C H K V M)}
    {r : Visit C H K V M} (h : p.Recorded fresh s vs t) (hsplit : vs = before ++ r :: after)
    (hs : ∀ v, ¬ s.Has fresh (p.placeOf r) v) (hwithin : p.placeOf r ∉ r.within)
    (hfirst : ∀ q ∈ before, p.placeOf q = p.placeOf r → p.placeOf r ∈ q.within) :
    r.ran = true ∧ ∀ v, r.outcome = .value v → t.Has fresh (p.placeOf r) v ∧
      ∀ q ∈ after, p.placeOf q = p.placeOf r →
        q.outcome = .value v ∧ q.ran = false ∧ q.left = q.memory := by
  have hran : r.ran = true := by
    by_contra hfound
    obtain ⟨q, hq, hplace, hq', -⟩ := ((explains_chronicle (p.placeOf r)).recorded h).found
      (by simp) hs before r after hsplit rfl hwithin (Bool.eq_false_iff.mpr hfound)
    exact hq' (hfirst q hq hplace)
  refine ⟨hran, fun v ho => ?_⟩
  have hsettles := (settles_chronicle (p.placeOf r)).recorded h
  refine ⟨hsettles.stored r (by simp [hsplit]) rfl hwithin v ho, fun q hq hplace => ?_⟩
  have hdecides := hsettles.decides
  rw [hsplit] at hdecides
  have hlater := List.pairwise_cons.mp (List.pairwise_append.mp hdecides).2.1
  obtain ⟨hvalue, hq'⟩ := hlater.1 q hq rfl hwithin v ho hplace
  exact ⟨hvalue, hq', (hits_chronicle.recorded h q (by simp [hsplit, hq]) hq').1⟩

end Program

/-! ### Calls of memoized functions -/

namespace Library

variable {F H V L D : Type} {code : F → Written} [DecidableEq H] [DecidableEq D]
variable (lib : Library code H V L D) (fresh : H → Store (List D) V)

/-- The state in which the statements of a call start: its variables are there, and its holder was
asked for the values that its arguments stood for. -/
structure Starts (c : FunctionCall code L D) (s b : State H V L D) : Prop where
  memory : b.memory = s.memory.enter c.frame
  entries : ∀ h, (b.store fresh h).entries = (s.store fresh h).entries
  history : b.history = ⟨.started, lib.holderOf c, c.values s.memory⟩ ::
    ⟨.called, lib.holderOf c, c.values s.memory⟩ :: s.history

/-- A function empties what its only parameter refers to: if its statements end with a value, then
there is the empty value at that place. -/
def Empties (f : F) (empty : D) : Prop :=
  ∀ (c : FunctionCall code L D) (l : L), c.function = f → c.arguments = [.reference l] →
    ∀ n (s : State H V L D) v u, (lib.original f).run (lib.run fresh n)
      { s with memory := s.memory.enter c.frame } = some (.value v, u) → u.memory.places l = empty

variable {lib fresh}

/-- A call of a function that empties what its parameter refers to, if its statements ended with a
value. -/
theorem Empties.left {f : F} {empty : D} (h : lib.Empties fresh f empty)
    {q : Visit (FunctionCall code L D) H (List D) V (Memory L D)} (hq : lib.program.Made fresh q)
    (hfunction : q.call.function = f) {l : L} (hl : q.call.arguments = [.reference l])
    (hran : q.ran = true) {v : V} (ho : q.outcome = .value v) : q.left.places l = empty := by
  obtain ⟨n, s, t, hcall, -, hleft, hfinds⟩ := hq
  rw [ho] at hcall
  cases n with
  | zero => cases hcall
  | succ n =>
    rcases lib.program.call_cases fresh hcall with
      ⟨x, hx, -, -⟩ | ⟨-, ⟨e, -, ho⟩ | ⟨x, u, hrun, hx, rfl⟩⟩
    · have hfound : lib.program.finds fresh q.call s = true := by
        rw [Program.finds, hx]
        rfl
      rw [hran, hfound] at hfinds
      cases hfinds
    · cases ho
    · obtain rfl := Outcome.value.inj hx
      rw [run_body, ← lib.run_eq_call fresh, hfunction] at hrun
      obtain ⟨⟨o, b⟩, hb, heq⟩ := Option.map_eq_some_iff.mp hrun
      obtain ⟨rfl, rfl⟩ := Prod.mk.inj heq
      rw [← hleft]
      exact h q.call l hfunction hl n _ v b hb

section Calls

variable {c : FunctionCall code L D} {s : State H V L D}

theorem run_of_found {v : V}
    (hv : (s.store fresh (lib.holderOf c)).entries.get? (c.values s.memory) = some v) (n : Nat) :
    lib.run fresh (n + 1) c s = some (.value v, lib.program.asked fresh c s) := by
  rw [lib.run_eq_call, lib.program.call_succ fresh]
  change (match (s.store fresh (lib.holderOf c)).entries.get? (c.values s.memory) with
    | some v => some (Outcome.value v, lib.program.asked fresh c s)
    | none => _) = _
  rw [hv]

/-- A call that finds none runs its statements with its variables. -/
theorem run_of_missing
    (hv : (s.store fresh (lib.holderOf c)).entries.get? (c.values s.memory) = none) (n : Nat) :
    lib.run fresh (n + 1) c s =
      (((lib.original c.function).run (lib.run fresh n) { lib.program.started fresh c s with
        memory := s.memory.enter c.frame }).map fun r =>
          (r.1, { r.2 with memory := r.2.memory.leave })).map
            (Program.keep fresh (lib.holderOf c) (c.values s.memory)) := by
  rw [lib.run_eq_call, lib.run_eq_call, lib.program.call_succ fresh]
  change (match (s.store fresh (lib.holderOf c)).entries.get? (c.values s.memory) with
    | some v => some (Outcome.value v, lib.program.asked fresh c s)
    | none => ((lib.program.body c).run _ _).map _) = _
  rw [hv, run_body]
  rfl

end Calls

variable (lib fresh)

/-- **Keys are made at entry.** A call of a memoized function, its body being executed part by part
in any state. The copies for its key are the values that its arguments stand for when it starts. If
there is a result for them, it is answered, the memory is left as it was, and the holder was asked
for nothing else. Otherwise the statements start with the variables of the call; whatever they do to
these and to the places that they refer to, and whatever they call, a value that they end with is
kept under the values of the start, and nothing is kept if they panic.

Hence for a function that empties what its only parameter refers to, in a run of calls, nested ones
included: the first call for a value runs, leaves the place empty and has its result stored under
the value that was there before, and later calls for an equal value answer this result and leave the
memory as it was. -/
theorem key_at_entry :
    (∀ n (c : FunctionCall code L D) (s : State H V L D),
      c.callee.body.tokens = BodyPart.all.flatMap c.callee.body.text ∧
      copies? (s.memory.enter c.frame) c.callee.body.parts = some (c.values s.memory) ∧
      (∀ v, (s.store fresh (lib.holderOf c)).entries.get? (c.values s.memory) = some v →
        ∃ t, lib.run fresh (n + 1) c s = some (.value v, t) ∧ t.memory = s.memory ∧
          (∀ h, (t.store fresh h).entries = (s.store fresh h).entries) ∧
          t.history = ⟨.called, lib.holderOf c, c.values s.memory⟩ :: s.history) ∧
      ((s.store fresh (lib.holderOf c)).entries.get? (c.values s.memory) = none →
        ∃ b, lib.Starts fresh c s b ∧
          ((lib.original c.function).run (lib.run fresh n) b = none →
            lib.run fresh (n + 1) c s = none) ∧
          (∀ e u, (lib.original c.function).run (lib.run fresh n) b = some (.panicked e, u) →
            lib.run fresh (n + 1) c s =
              some (.panicked e, { u with memory := u.memory.leave })) ∧
          ∀ v u, (lib.original c.function).run (lib.run fresh n) b = some (.value v, u) →
            ∃ t, lib.run fresh (n + 1) c s = some (.value v, t) ∧ t.memory = u.memory.leave ∧
              (t.store fresh (lib.holderOf c)).entries =
                (u.store fresh (lib.holderOf c)).entries.insert (c.values s.memory) v ∧
              (∀ h, h ≠ lib.holderOf c → t.store fresh h = u.store fresh h) ∧
              t.history = ⟨.completed, lib.holderOf c, c.values s.memory⟩ :: u.history)) ∧
    ∀ f empty, lib.Empties fresh f empty → ∀ s vs t before r after l,
      lib.program.Recorded fresh s vs t → vs = before ++ r :: after →
      r.call.function = f → r.call.arguments = [.reference l] →
      (∀ v, ¬ s.Has fresh (lib.holderOf r.call, [r.memory.places l]) v) →
      lib.program.placeOf r ∉ r.within →
      (∀ q ∈ before, lib.program.placeOf q = lib.program.placeOf r →
        lib.program.placeOf r ∈ q.within) →
      r.ran = true ∧ ∀ v, r.outcome = .value v →
        r.left.places l = empty ∧ t.Has fresh (lib.holderOf r.call, [r.memory.places l]) v ∧
        ∀ q ∈ after, lib.holderOf q.call = lib.holderOf r.call →
          q.call.values q.memory = [r.memory.places l] →
            q.outcome = .value v ∧ q.ran = false ∧ q.left = q.memory := by
  refine ⟨fun n c s => ⟨c.callee.body.tokens_eq_parts, c.copies?_enter s.memory, fun v hv => ?_,
    fun hv => ?_⟩, ?_⟩
  · rw [run_of_found hv]
    exact ⟨_, rfl, rfl, lib.program.entries_asked fresh c s, rfl⟩
  · -- The key is made before the statements start, and is no variable that they can change.
    have hcall := run_of_missing hv n
    refine ⟨{ lib.program.started fresh c s with memory := s.memory.enter c.frame },
      ⟨rfl, lib.program.entries_asked fresh c s, rfl⟩, fun hrun => ?_, fun e u hrun => ?_,
      fun v u hrun => ?_⟩
    · rw [hcall, hrun]
      rfl
    · rw [hcall, hrun]
      rfl
    · rw [hcall, hrun]
      exact ⟨_, rfl, rfl, Program.entries_kept fresh _ _ v _, fun h hne =>
        Program.store_kept_of_ne fresh hne _ v _, rfl⟩
  · intro f empty hempties s vs t before r after l hrun hsplit hfunction hl hs hwithin hfirst
    have hplace : lib.program.placeOf r = (lib.holderOf r.call, [r.memory.places l]) := by
      change (lib.holderOf r.call, r.call.values r.memory) = _
      rw [FunctionCall.values, hl]
      rfl
    obtain ⟨hran, hlater⟩ := hrun.of_first hsplit (by rwa [hplace]) hwithin hfirst
    refine ⟨hran, fun v ho => ?_⟩
    obtain ⟨hstored, hafter⟩ := hlater v ho
    refine ⟨?_, hplace ▸ hstored, fun q hq hholder hvalues => hafter q hq ?_⟩
    · exact hempties.left (hrun.made r (by simp [hsplit])) hfunction hl hran ho
    · rw [hplace]
      change (lib.holderOf q.call, q.call.values q.memory) = _
      rw [hholder, hvalues]

/-- A function that empties the list it is passed a reference to, and answers how long it was. -/
def drainFunction : String :=
  "fn drain(list: &mut Vec<u32>) -> usize \x7b let n = list.len(); list.clear(); n \x7d"

/-- What such a function does with the list at the only place that there is. -/
def draining (code : Unit → Written) : Library code Unit Nat Unit (List Nat) where
  holder _ _ := ()
  original _ := .read fun m => .write { m with places := fun _ => [] } (.done (m.places ()).length)

/-- What such a function does empties the list. -/
theorem draining_empties (code : Unit → Written) (fresh : Unit → Store (List (List Nat)) Nat) :
    (draining code).Empties fresh () [] := by
  intro c l _ _ n s v u hrun
  obtain ⟨-, rfl⟩ := Prod.mk.inj (Option.some.inj hrun)
  rfl

/-- The function is called with a list of two numbers, which it empties, and then with an equal
list, which it leaves as it is. -/
theorem key_at_entry_drain :
    let fresh : Unit → Store (List (List Nat)) Nat := fun _ => .plain .cell []
    ∃ (f : Function) (names' : Names) (w : Written)
      (c : FunctionCall (fun _ : Unit => w) Unit (List Nat))
      (first later : Visit (FunctionCall (fun _ : Unit => w) Unit (List Nat)) Unit
        (List (List Nat)) Nat (Memory Unit (List Nat)))
      (t : State Unit Nat Unit (List Nat)),
      Memoized.readFunction? drainFunction = some f ∧
      Memoized.parts .none f.signature f.body .empty none = .ok (w.memoized, names') ∧
      (draining fun _ => w).program.Recorded fresh (.initial ⟨[], fun _ => [3, 4]⟩)
        [first, later] t ∧
      (first.call = c ∧ first.memory.places () = [3, 4] ∧ first.ran = true ∧
        first.outcome = .value 2 ∧ first.left.places () = []) ∧
      (later.call = c ∧ later.memory.places () = [3, 4] ∧ later.ran = false ∧
        later.outcome = .value 2 ∧ later.left = later.memory) ∧
      t.Has fresh ((), [[3, 4]]) 2 := by
  intro fresh
  have hread : (Memoized.memoizedAlone? drainFunction).map (fun q =>
      (q.2.body.parts.map fun k =>
          (Content.reference () : Content Unit (List Nat)).fits k.ownership,
        q.2.signature.names.map Token.name)) = some ([true], ["list"]) := by
    decide +kernel
  obtain ⟨⟨f, m⟩, hread, heq⟩ := Option.map_eq_some_iff.mp hread
  obtain ⟨hf, names', hparts⟩ := Memoized.memoizedAlone?_eq_some hread
  obtain ⟨hfits, hnames⟩ := Prod.mk.inj heq
  obtain ⟨k, hk, hfits⟩ := List.map_eq_singleton_iff.mp hfits
  obtain ⟨x, hx, -⟩ := List.map_eq_singleton_iff.mp hnames
  let w : Written := ⟨m, ⟨_, _, _, _, _, _, hparts⟩, by simp [hx]⟩
  let c : FunctionCall (fun _ : Unit => w) Unit (List Nat) :=
    ⟨(), none, [.reference ()], by
      rw [show (w.memoized.body.parts : List KeyPart) = [k] from hk]
      exact .cons hfits .nil⟩
  obtain ⟨first, later, t, hrun, hfirst, hlater⟩ :
      ∃ first later t, (draining fun _ => w).program.Recorded fresh
          (.initial ⟨[], fun _ => [3, 4]⟩) [first, later] t ∧
        (first.call = c ∧ first.memory.places () = [3, 4] ∧ first.within = [] ∧
          first.outcome = .value 2) ∧
        later.call = c ∧ later.memory.places () = [3, 4] :=
    ⟨_, _, _, .call (n := 1) (c := c) rfl (.memory (m := ⟨[], fun _ => [3, 4]⟩)
      (.call (n := 1) (c := c) rfl (.done _))), ⟨rfl, rfl, rfl, rfl⟩, rfl, rfl⟩
  obtain ⟨hcall, hlist, hwithin, ho⟩ := hfirst
  obtain ⟨hcall', hlist'⟩ := hlater
  obtain ⟨hran, hvalue⟩ := (key_at_entry (draining fun _ => w) fresh).2 () []
    (draining_empties _ fresh) _ _ _ [] first [later] () hrun rfl rfl (by rw [hcall])
    (fun v hv => by cases hv) (by simp [hwithin]) (by simp)
  obtain ⟨hleft, hstored, hagain⟩ := hvalue 2 ho
  obtain ⟨ho', hran', hleft'⟩ := hagain later (by simp) rfl (by
    rw [hcall', FunctionCall.values, hlist]
    simp [c, Content.read, hlist'])
  rw [hlist] at hstored
  exact ⟨f, names', w, c, first, later, t, hf, hparts, hrun, ⟨hcall, hlist, hran, ho, hleft⟩,
    ⟨hcall', hlist', hran', ho', hleft'⟩, hstored⟩

end Library

end Memoize
