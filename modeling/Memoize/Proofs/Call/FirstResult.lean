import Memoize.Proofs.Call.Journal
import Memoize.Sample.Catalogue

/-!
# The first result wins

Functions that share a holder share its results: whichever of them is called first with a key fixes
what all of them answer for it, whatever their bodies do to the memory in the meantime. Main
statement: this holds from the first call with the key that ends with a value and was not made
within a body for the key (`first_result_wins`). A call that a body makes with the key of its own
call stores a result that the body replaces when it ends (`own_result_replaced`).

## Implementation notes

Calls are ordered by their ends. A call that ends after another one for its key, and was not made
before it, started after it ended; one that was made before it has it within its body.
-/

namespace Memoize

variable {C H K V M : Type} [DecidableEq H] [DecidableEq K]

/-- At most one element of a list has a property of which later elements keep each other. -/
theorem countP_le_one {α : Type} {f : α → Bool} {l : List α}
    (h : l.Pairwise fun x y => f x = true → f y = false) : l.countP f ≤ 1 := by
  induction h with
  | nil => exact Nat.zero_le 1
  | @cons x l hx _ ih =>
    by_cases hfx : f x = true
    · have hnone : l.countP f = 0 := by
        rw [List.countP_eq_zero]
        intro y hy hfy
        exact absurd (hx y hy hfx) (by simp [hfy])
      simp [hfx, hnone]
    · simpa [hfx] using ih

namespace Program

variable (p : Program C H K V M) (fresh : H → Store K V)

/-- What later calls for a holder and a key are told by the first call for them that ends with a
value while no body is under way for them. -/
def Decides (a : H × K) (r q : Visit C H K V M) : Prop :=
  p.placeOf r = a → a ∉ r.within → ∀ v, r.outcome = .value v → p.placeOf q = a →
    q.outcome = .value v ∧ q.ran = false

/-- Whether a body ran to its end for a holder and a key, and within no other body for them. -/
def completes (a : H × K) (q : Visit C H K V M) : Bool :=
  decide (p.placeOf q = a ∧ a ∉ q.within) && q.ran &&
    match q.outcome with
    | .value _ => true
    | .panicked _ => false

/-- The calls of a journal that were not made within bodies for a holder and a key decide what later
calls for them answer, and their results are stored. -/
structure Settles (a : H × K) (w : List (H × K)) (s : Machine H K V M)
    (vs : List (Visit C H K V M)) (t : Machine H K V M) : Prop where
  within : ∀ q ∈ vs, w ⊆ q.within
  answers : p.Answers fresh a w s vs t
  stored : ∀ q ∈ vs, p.placeOf q = a → a ∉ q.within → ∀ v, q.outcome = .value v → t.Has fresh a v
  decides : vs.Pairwise (p.Decides a)

variable {p fresh}

/-- A body for the holder and key has no call in it that was not made within it. -/
theorem Settles.ne_of_body {a b : H × K} {w : List (H × K)} {s u : Machine H K V M}
    {vs : List (Visit C H K V M)} (h : p.Settles fresh a (b :: w) s vs u) {q : Visit C H K V M}
    (hq : q ∈ vs) (ha : a ∉ q.within) : a ≠ b :=
  fun hab => ha (h.within q hq (hab ▸ List.mem_cons_self))

/-- A call was made within the same bodies as the calls of its body, but for its own. -/
theorem Settles.within_concat {a b : H × K} {w : List (H × K)} {s u : Machine H K V M}
    {vs : List (Visit C H K V M)} {q : Visit C H K V M} (h : p.Settles fresh a (b :: w) s vs u)
    (hq : q.within = w) : ∀ r ∈ vs ++ [q], w ⊆ r.within := by
  intro r hr
  rcases List.mem_append.mp hr with hr | hr
  · exact List.Subset.trans (List.subset_cons_self b w) (h.within r hr)
  · obtain rfl := List.mem_singleton.mp hr
    exact fun _ hb => hq ▸ hb

/-- A call that ends after the calls of its body decides nothing for them, nor they for it. -/
theorem Settles.decides_concat {a : H × K} {w : List (H × K)} {s u : Machine H K V M}
    {vs : List (Visit C H K V M)} {q : Visit C H K V M}
    (h : p.Settles fresh a (p.placeOf q :: w) s vs u) : (vs ++ [q]).Pairwise (p.Decides a) := by
  refine List.pairwise_append.mpr ⟨h.decides, List.pairwise_singleton _ q, fun r hr q' hq' => ?_⟩
  obtain rfl := List.mem_singleton.mp hq'
  intro _ hwithin _ _ hplace
  exact absurd hplace.symm (h.ne_of_body hr hwithin)

/-- Every move of a call settles results. -/
theorem settles_chronicle (a : H × K) : p.Chronicle fresh (p.Settles fresh a) where
  done w s := ⟨nofun, (answers_chronicle a).done w s, nofun, .nil⟩
  append w s t u vs ws hst htu := by
    refine ⟨fun q hq => ?_, (answers_chronicle a).append w s t u vs ws hst.answers htu.answers,
      fun q hq hplace hwithin v ho => ?_, ?_⟩
    · exact (List.mem_append.mp hq).elim (hst.within q) (htu.within q)
    · rcases List.mem_append.mp hq with hq | hq
      · exact (htu.answers v (hst.stored q hq hplace hwithin v ho)).1
      · exact htu.stored q hq hplace hwithin v ho
    · refine List.pairwise_append.mpr ⟨hst.decides, htu.decides, fun r hr q hq => ?_⟩
      intro hplace hwithin v ho hq'
      exact (htu.answers v (hst.stored r hr hplace hwithin v ho)).2 q hq hq'
  write w s m := ⟨nofun, (answers_chronicle a).write w s m, nofun, .nil⟩
  hit w c s v hv := by
    refine ⟨fun q hq => ?_, (answers_chronicle a).hit w c s v hv, fun q hq hplace _ x ho => ?_,
      List.pairwise_singleton _ _⟩
    · obtain rfl := List.mem_singleton.mp hq
      exact List.Subset.refl w
    · obtain rfl := List.mem_singleton.mp hq
      obtain rfl := Outcome.value.inj ho
      subst hplace
      exact has_asked.mpr hv
  panicked w c s e u vs hv hsu := by
    refine ⟨hsu.within_concat rfl, (answers_chronicle a).panicked w c s e u vs hv hsu.answers,
      fun q hq hplace hwithin x ho => ?_, hsu.decides_concat⟩
    · rcases List.mem_append.mp hq with hq | hq
      · exact hsu.stored q hq hplace hwithin x ho
      · obtain rfl := List.mem_singleton.mp hq
        exact nomatch ho
  kept w c s v u vs hv hsu := by
    refine ⟨hsu.within_concat rfl, (answers_chronicle a).kept w c s v u vs hv hsu.answers,
      fun q hq hplace hwithin x ho => ?_, hsu.decides_concat⟩
    · rcases List.mem_append.mp hq with hq | hq
      · exact (has_kept_of_ne (hsu.ne_of_body hq hwithin)).mpr
          (hsu.stored q hq hplace hwithin x ho)
      · obtain rfl := List.mem_singleton.mp hq
        obtain rfl := Outcome.value.inj ho
        subst hplace
        exact has_kept_self

/-- A call that answers a stored result leaves the memory as it was. -/
theorem hits_chronicle : p.Chronicle fresh fun _ _ vs _ =>
    ∀ q ∈ vs, q.ran = false → q.left = q.memory ∧ ∃ v, q.outcome = .value v where
  done _ _ := nofun
  append w s t u vs ws hvs hws q hq := (List.mem_append.mp hq).elim (hvs q) (hws q)
  write _ _ _ := nofun
  hit w c s v hv q hq _ := by
    obtain rfl := List.mem_singleton.mp hq
    exact ⟨rfl, v, rfl⟩
  panicked w c s e u vs hv hvs q hq hran := by
    rcases List.mem_append.mp hq with hq | hq
    · exact hvs q hq hran
    · obtain rfl := List.mem_singleton.mp hq
      exact nomatch hran
  kept w c s v u vs hv hvs q hq hran := by
    rcases List.mem_append.mp hq with hq | hq
    · exact hvs q hq hran
    · obtain rfl := List.mem_singleton.mp hq
      exact nomatch hran

/-- A body that ran to its end within no other body for its holder and key. -/
theorem of_completes {a : H × K} {q : Visit C H K V M} (h : p.completes a q = true) :
    p.placeOf q = a ∧ a ∉ q.within ∧ q.ran = true ∧ ∃ v, q.outcome = .value v := by
  simp only [completes, Bool.and_eq_true, decide_eq_true_eq] at h
  obtain ⟨⟨⟨hplace, hwithin⟩, hran⟩, hvalue⟩ := h
  refine ⟨hplace, hwithin, hran, ?_⟩
  cases ho : q.outcome with
  | value v => exact ⟨v, rfl⟩
  | panicked e => simp [ho] at hvalue

/-- **The first result wins.** In a run of calls, nested ones included, a call that ends with a
value while no body is under way for its holder and key fixes what all later calls for them answer,
and none of these runs its body; so at most one body for them runs to its end within no other body
for them. Calls that answer a stored result leave the memory as it was. -/
theorem first_result_wins {s t : Machine H K V M} {vs : List (Visit C H K V M)}
    (h : p.Recorded fresh s vs t) :
    (∀ a before r after, vs = before ++ r :: after → p.placeOf r = a → a ∉ r.within →
      ∀ v, r.outcome = .value v → ∀ q ∈ after, p.placeOf q = a →
        q.outcome = .value v ∧ q.ran = false) ∧
    (∀ a, vs.countP (p.completes a) ≤ 1) ∧
    ∀ q ∈ vs, q.ran = false → q.left = q.memory ∧ ∃ v, q.outcome = .value v := by
  refine ⟨?_, fun a => ?_, hits_chronicle.recorded h⟩
  · rintro a before r after rfl hplace hwithin v ho q hq hqa
    have hdecides := ((settles_chronicle a).recorded h).decides
    have hlater := List.pairwise_cons.mp (List.pairwise_append.mp hdecides).2.1
    exact hlater.1 q hq hplace hwithin v ho hqa
  · apply countP_le_one
    refine ((settles_chronicle a).recorded h).decides.imp fun {r q} hrq hr => ?_
    obtain ⟨hplace, hwithin, -, v, ho⟩ := of_completes hr
    rw [Bool.eq_false_iff]
    intro hq
    obtain ⟨hq, -, hran, -⟩ := of_completes hq
    exact absurd (hrq hplace hwithin v ho hq).2 (by simp [hran])

end Program

/-- Two methods of a rectangle are called with the same scale, and in between the second one makes
the rectangle wider: its later call answers the area that the first one found. -/
theorem first_result_wins_area :
    ∃ first wider later t,
      Sample.program.Recorded Sample.fresh (.initial ⟨[], [⟨2, 3⟩]⟩) [first, wider, later] t ∧
      (first.call = .scaledArea 0 5 ∧ wider.call = .grownArea 0 7 ∧ later.call = .grownArea 0 5) ∧
      later.memory.rectangles = [⟨9, 3⟩] ∧
      (later.outcome = .value (.word 30) ∧ later.ran = false ∧ later.left = later.memory) ∧
      [first, wider, later].countP (Sample.program.completes (.rectangle 0, [.number 5])) ≤ 1 := by
  obtain ⟨first, wider, later, t, hrun, hcalls, hmemory, hfirst, hlater⟩ :
      ∃ first wider later t,
        Sample.program.Recorded Sample.fresh (.initial ⟨[], [⟨2, 3⟩]⟩) [first, wider, later] t ∧
        (first.call = .scaledArea 0 5 ∧ wider.call = .grownArea 0 7 ∧
          later.call = .grownArea 0 5) ∧
        later.memory.rectangles = [⟨9, 3⟩] ∧
        (Sample.program.placeOf first = (.rectangle 0, [.number 5]) ∧ first.within = [] ∧
          first.outcome = .value (.word 30)) ∧
        Sample.program.placeOf later = (.rectangle 0, [.number 5]) :=
    ⟨_, _, _, _, .call (n := 1) (c := Sample.Call.scaledArea 0 5) rfl
      (.call (n := 1) (c := Sample.Call.grownArea 0 7) rfl
        (.call (n := 1) (c := Sample.Call.grownArea 0 5) rfl (.done _))),
      ⟨rfl, rfl, rfl⟩, rfl, ⟨rfl, rfl, rfl⟩, rfl⟩
  obtain ⟨hplace, hwithin, ho⟩ := hfirst
  have hwins := Program.first_result_wins hrun
  obtain ⟨hsame, hran⟩ := hwins.1 _ [] first [wider, later] rfl hplace (by simp [hwithin]) _ ho
    later (by simp) hlater
  exact ⟨first, wider, later, t, hrun, hcalls, hmemory,
    ⟨hsame, hran, (hwins.2.2 later (by simp) hran).1⟩, hwins.2.1 _⟩

/-- A method calls itself with its own argument: the first call that ends answers one, and two
bodies run to their end, after which calls answer two. -/
theorem own_result_replaced :
    ∃ vs t, (selfCalling fun _ => .done 2).Recorded (fun _ => .plain .cell []) (.initial false) vs t ∧
      vs.map (fun q => (q.outcome, q.ran)) =
        [(.value 1, true), (.value 2, true), (.value 2, false)] :=
  ⟨_, _, .call (n := 2) (c := ()) rfl (.call (n := 1) (c := ()) rfl (.done _)), rfl⟩

end Memoize
