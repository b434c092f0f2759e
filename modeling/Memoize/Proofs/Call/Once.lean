import Mathlib.Tactic.Tauto
import Memoize.Proofs.Call.Soundness

/-!
# Bodies that run once

A body that ends nests less deep with every call it makes, so no call within it has its own key. For
pure functions this bounds the started bodies: between the calls of a run, each key that was called
has started exactly one body, and its result is stored (`once_of_run`).

## Implementation notes

While a body runs, its key is under way: started, and not stored yet. `OnceAt` is stated with the
keys under way as a parameter. That none of them is called again is read off the depth: they do not
end without memoization at the depth at which the call does, and for pure calls that is a matter of
the key.
-/

namespace Memoize

variable {C H K V M : Type}

/-- The calls in `P` are pure: how they end, and how deep they nest, depends on their holder and key
only. -/
def Program.Pure (p : Program C H K V M) (P : C → Prop) : Prop :=
  ∀ c d m m' n, P c → P d → p.holder c = p.holder d → p.key c m = p.key d m' →
    (p.direct n c m).map (·.1) = (p.direct n d m').map (·.1)

/-- Of two calls of a key both end at a depth or none does. -/
theorem Program.Pure.direct_none {p : Program C H K V M} {P : C → Prop} (hpure : p.Pure P)
    {c d : C} {m m' : M} {n : Nat} (hc : P c) (hd : P d) (hh : p.holder c = p.holder d)
    (hkey : p.key c m = p.key d m') (h : p.direct n c m = none) : p.direct n d m' = none := by
  have heq := hpure c d m m' n hc hd hh hkey
  rw [h] at heq
  exact Option.map_eq_none_iff.mp heq.symm

variable [DecidableEq H] [DecidableEq K]

/-- The bodies of a holder have started once for the keys that are stored or under way, and for no
others, and these are the keys that were called. -/
structure Machine.OnceAt (fresh : H → Store K V) (h : H) (underWay : K → Prop)
    (s : Machine H K V M) : Prop where
  nodup : (s.keysAt .started h).Nodup
  started_iff : ∀ k, k ∈ s.keysAt .started h ↔
    k ∈ (s.store fresh h).entries.keys ∨ underWay k
  called_iff : ∀ k, k ∈ s.keysAt .called h ↔ k ∈ s.keysAt .started h

omit [DecidableEq K] in
/-- What happens elsewhere does not matter. -/
theorem Machine.OnceAt.congr {fresh : H → Store K V} {h : H} {underWay underWay' : K → Prop}
    {s t : Machine H K V M} (hs : s.OnceAt fresh h underWay)
    (hentries : (t.store fresh h).entries = (s.store fresh h).entries)
    (hkeys : ∀ stage, t.keysAt stage h = s.keysAt stage h)
    (hunderWay : ∀ k, underWay' k ↔ underWay k) : t.OnceAt fresh h underWay' := by
  refine ⟨?_, fun k => ?_, fun k => ?_⟩
  · rw [hkeys]
    exact hs.nodup
  · rw [hkeys, hentries, hs.started_iff k, hunderWay k]
  · rw [hkeys, hkeys, hs.called_iff k]

/-- The bodies of the calls in `P` have started once for the keys that are stored or under way. -/
def Program.Once (p : Program C H K V M) (fresh : H → Store K V) (P : C → Prop)
    (underWay : H → K → Prop) (s : Machine H K V M) : Prop :=
  ∀ c, P c → s.OnceAt fresh (p.holder c) (underWay (p.holder c))

/-- The keys that are under way in the body of a call. -/
def Program.within (p : Program C H K V M) (c : C) (m : M) (underWay : H → K → Prop) (h : H)
    (k : K) : Prop :=
  underWay h k ∨ p.holder c = h ∧ k = p.key c m

namespace Program

variable {p : Program C H K V M} {fresh : H → Store K V} {P : C → Prop} {f : H → K → V}
  {underWay : H → K → Prop}

/-- A hit starts no body. -/
theorem once_hit {c : C} {s : Machine H K V M} {v : V} (hs : p.Once fresh P underWay s)
    (hv : (s.store fresh (p.holder c)).entries.get? (p.key c s.memory) = some v) :
    p.Once fresh P underWay (p.asked fresh c s) := by
  intro d hd
  have hat := hs d hd
  by_cases hh : p.holder c = p.holder d
  · have hmem : p.key c s.memory ∈ s.keysAt .called (p.holder d) := by
      rw [hat.called_iff, hat.started_iff, ← hh]
      exact Or.inl (List.mem_map_of_mem (Entries.mem_of_get? hv))
    have hstarted : (p.asked fresh c s).keysAt .started (p.holder d) =
        s.keysAt .started (p.holder d) := by
      simp [keysAt_asked]
    refine ⟨?_, fun k => ?_, fun k => ?_⟩
    · rw [hstarted]
      exact hat.nodup
    · rw [hstarted, entries_asked]
      exact hat.started_iff k
    · rw [hstarted, ← hat.called_iff k, keysAt_asked, if_pos ⟨rfl, hh⟩, List.mem_cons]
      exact or_iff_right_of_imp fun hk => hk ▸ hmem
  · exact hat.congr (entries_asked p fresh c s _)
      (keysAt_asked_of_ne p fresh (Ne.symm hh) s) fun k => Iff.rfl

/-- A miss for a key that is not under way starts a body for a new key, which is under way then. -/
theorem once_miss {c : C} {s : Machine H K V M} (hs : p.Once fresh P underWay s)
    (hv : (s.store fresh (p.holder c)).entries.get? (p.key c s.memory) = none)
    (hnew : ¬ underWay (p.holder c) (p.key c s.memory)) :
    p.Once fresh P (p.within c s.memory underWay) (p.started fresh c s) := by
  intro d hd
  have hat := hs d hd
  by_cases hh : p.holder c = p.holder d
  · have hstarted : (p.started fresh c s).keysAt .started (p.holder d) =
        p.key c s.memory :: s.keysAt .started (p.holder d) := by
      simp [keysAt_started, keysAt_asked, hh]
    have hcalled : (p.started fresh c s).keysAt .called (p.holder d) =
        p.key c s.memory :: s.keysAt .called (p.holder d) := by
      simp [keysAt_started, keysAt_asked, hh]
    have hentries : ((p.started fresh c s).store fresh (p.holder d)).entries =
        (s.store fresh (p.holder d)).entries := entries_asked p fresh c s (p.holder d)
    have hnotstarted : p.key c s.memory ∉ s.keysAt .started (p.holder d) := by
      rw [hat.started_iff, ← hh, not_or]
      exact ⟨Entries.get?_eq_none_iff.mp hv, hnew⟩
    refine ⟨?_, fun k => ?_, fun k => ?_⟩
    · rw [hstarted]
      exact List.nodup_cons.mpr ⟨hnotstarted, hat.nodup⟩
    · rw [hstarted, hentries, List.mem_cons, hat.started_iff k, within]
      tauto
    · rw [hstarted, hcalled, List.mem_cons, List.mem_cons, hat.called_iff k]
  · refine hat.congr (entries_asked p fresh c s _)
      (keysAt_started_of_ne p fresh (Ne.symm hh) s) fun k => ?_
    exact or_iff_left fun hk => hh hk.1

/-- A kept result is not under way any more. -/
theorem once_kept {c : C} {m : M} {v : V} {s : Machine H K V M}
    (hs : p.Once fresh P (p.within c m underWay) s) :
    p.Once fresh P underWay (kept fresh (p.holder c) (p.key c m) v s) := by
  intro d hd
  have hat := hs d hd
  by_cases hh : p.holder c = p.holder d
  · have hkeys : ∀ stage, stage ≠ .completed →
        (kept fresh (p.holder c) (p.key c m) v s).keysAt stage (p.holder d) =
          s.keysAt stage (p.holder d) :=
      fun stage hstage => by rw [keysAt_kept, if_neg fun h => hstage h.1.symm]
    refine ⟨?_, fun k => ?_, fun k => ?_⟩
    · rw [hkeys _ (by decide)]
      exact hat.nodup
    · rw [hkeys _ (by decide), hat.started_iff k, ← hh, entries_kept, Entries.mem_keys_insert,
        within]
      tauto
    · rw [hkeys _ (by decide), hkeys _ (by decide), hat.called_iff k]
  · refine hat.congr ?_ (keysAt_kept_of_ne fresh (Ne.symm hh) _ v s) fun k => ?_
    · rw [store_kept_of_ne fresh (Ne.symm hh)]
    · exact (or_iff_left fun hk => hh hk.1).symm

omit [DecidableEq K] in
/-- No body has started before the first call. -/
theorem once_initial (hfresh : ∀ h, (fresh h).entries = []) (m : M) :
    p.Once fresh P (fun _ _ => False) (.initial m) := by
  intro c _
  refine ⟨List.nodup_nil, fun k => ?_, fun k => Iff.rfl⟩
  simp [Machine.keysAt, hfresh, Entries.keys, Machine.initial, Machine.store]

omit [DecidableEq K] in
/-- The key of a call that shares no holder with `P` does not matter. -/
theorem once_within {c : C} {m : M} {s : Machine H K V M}
    (hapart : ∀ d, P d → p.holder c ≠ p.holder d) :
    p.Once fresh P (p.within c m underWay) s ↔ p.Once fresh P underWay s := by
  refine forall_congr' fun d => imp_congr_right fun hd => ?_
  have hsame : p.within c m underWay (p.holder d) = underWay (p.holder d) := by
    funext k
    simp [within, hapart d hd]
  rw [hsame]

omit [DecidableEq K] in
/-- Writing to the memory starts no body. -/
theorem once_write (s : Machine H K V M) (m : M)
    (hs : p.Once fresh P underWay s) : p.Once fresh P underWay { s with memory := m } :=
  fun c hc => ⟨(hs c hc).nodup, (hs c hc).started_iff, (hs c hc).called_iff⟩

omit [DecidableEq H] [DecidableEq K] in
/-- What does not end at a depth does not end at the depth below it. -/
theorem direct_none_of_succ {depth : Nat} {c : C} {m : M} (h : p.direct (depth + 1) c m = none) :
    p.direct depth c m = none := by
  cases hr : p.direct depth c m with
  | none => rfl
  | some r =>
      rw [p.direct_succ depth c m hr] at h
      exact absurd h (Option.some_ne_none r)

omit [DecidableEq H] [DecidableEq K] in
/-- In the body of a call that ends one level further up, no key under way belongs to a call that
ends at the level of the body. -/
theorem Pure.deep_within (hpure : p.Pure P) {depth : Nat} {c : C} {m : M} (hc : P c)
    (hless : p.direct depth c m = none)
    (hdeep : ∀ d m, P d → underWay (p.holder d) (p.key d m) → p.direct (depth + 1) d m = none)
    (d : C) (m' : M) (hd : P d) (hu : p.within c m underWay (p.holder d) (p.key d m')) :
    p.direct depth d m' = none := by
  rcases hu with hu | ⟨hh, hkey⟩
  · exact direct_none_of_succ (hdeep d m' hd hu)
  · exact hpure.direct_none hc hd hh hkey.symm hless

/-- A call in `P` starts one body for each key that it adds to those that were called, if no key
under way belongs to a call that ends at the depth at which the call does. -/
theorem Computes.call_once (hp : p.Computes P f) (hpure : p.Pure P) (depth : Nat) (c : C)
    (hc : P c) (underWay : H → K → Prop) (n : Nat) (s : Machine H K V M) (o : Outcome V)
    (t : Machine H K V M) (hs : p.Sound fresh P f s) (hends : p.direct depth c s.memory ≠ none)
    (hdeep : ∀ d m, P d → underWay (p.holder d) (p.key d m) → p.direct depth d m = none)
    (honce : p.Once fresh P underWay s) (h : p.call fresh n c s = some (o, t)) :
    p.Once fresh P underWay t := by
  induction depth generalizing c underWay n s o t with
  | zero => exact absurd rfl hends
  | succ depth ih =>
      cases hless : p.direct depth c s.memory with
      | some r =>
          exact ih c hc underWay n s o t hs (by simp [hless])
            (fun d m hd hu => direct_none_of_succ (hdeep d m hd hu)) honce h
      | none =>
          cases n with
          | zero => simp [call] at h
          | succ n =>
              rcases p.call_cases fresh h with
                ⟨v, hv, -, rfl⟩ | ⟨hv, ⟨e, -, rfl⟩ | ⟨v, u, hr, rfl, rfl⟩⟩
              · exact once_hit honce hv
              · exact absurd ((hp.call_sound _ c s _ t hs h).2 hc).1 (by simp)
              · -- In the body the key of the call is under way as well; its calls nest less deep.
                have hstart := once_miss honce hv fun hu => hends (hdeep c s.memory hc hu)
                have hdeeper := hpure.deep_within hc hless hdeep
                obtain ⟨r, hdirect⟩ := Option.ne_none_iff_exists'.mp hends
                have hbody := hp.run_as_direct
                  (I := fun u => p.Sound fresh P f u ∧
                    p.Once fresh P (p.within c s.memory underWay) u)
                  (fun d s o t hd hI hends h => ⟨⟨(hp.call_sound n d s o t hI.1 h).1,
                    ih d hd _ n s o t hI.1 hends hdeeper hI.2 h⟩,
                    (hp.call_sound n d s o t hI.1 h).2 hd⟩)
                  (fun s m hI => ⟨hI.1, once_write s m hI.2⟩)
                  (p.body c) (hp.calls c hc) (p.started fresh c s)
                  ⟨sound_asked c s hs, hstart⟩ hdirect hr
                exact once_kept hbody.1.2

/-- The stores of the calls in `P` are sound, and no body of these calls is under way: each has
started once for each stored key. -/
def Settled (p : Program C H K V M) (fresh : H → Store K V) (P : C → Prop) (f : H → K → V)
    (s : Machine H K V M) : Prop :=
  p.Sound fresh P f s ∧ p.Once fresh P (fun _ _ => False) s

omit [DecidableEq K] in
/-- Writing to the memory leaves a settled machine settled. -/
theorem settled_write (s : Machine H K V M) (m : M) (hs : p.Settled fresh P f s) :
    p.Settled fresh P f { s with memory := m } :=
  ⟨hs.1, once_write s m hs.2⟩

/-- A call leaves a settled machine settled. -/
theorem Computes.call_settled (hp : p.Computes P f) (hpure : p.Pure P) (n : Nat) (c : C)
    (s : Machine H K V M) (o : Outcome V) (t : Machine H K V M) (hs : p.Settled fresh P f s)
    (h : p.call fresh n c s = some (o, t)) : p.Settled fresh P f t := by
  induction n generalizing c s o t with
  | zero => simp [call] at h
  | succ n ih =>
      refine ⟨(hp.call_sound _ c s o t hs.1 h).1, ?_⟩
      by_cases hc : P c
      · obtain ⟨depth, hends⟩ := hp.ends c s.memory hc
        exact hp.call_once hpure depth c hc _ (n + 1) s o t hs.1 (by simp [hends])
          (fun _ _ _ hu => hu.elim) hs.2 h
      · -- The key of a call outside of `P` matters to no holder of `P`, also in its body.
        have hwithin : ∀ u, p.Once fresh P (fun _ _ => False) u ↔
            p.Once fresh P (p.within c s.memory fun _ _ => False) u :=
          fun u => (once_within fun d hd hh => hc (hp.apart d c hd hh)).symm
        have hbody : (s.store fresh (p.holder c)).entries.get? (p.key c s.memory) = none →
            ∀ o u, (p.body c).run (p.call fresh n) (p.started fresh c s) = some (o, u) →
              p.Once fresh P (fun _ _ => False) u := by
          intro hv o u hr
          have hstart : p.Settled fresh P f (p.started fresh c s) :=
            ⟨sound_asked c s hs.1, (hwithin _).mpr (once_miss hs.2 hv not_false)⟩
          exact (run_preserves (Q := fun _ => True) (fun d s o t _ => ih d s o t) settled_write
            (p.body c) (p.body c).callsOnly_true _ hstart hr).2
        rcases p.call_cases fresh h with ⟨v, hv, -, rfl⟩ | ⟨hv, ⟨e, hr, rfl⟩ | ⟨v, u, hr, rfl, rfl⟩⟩
        · exact once_hit hs.2 hv
        · exact hbody hv _ _ hr
        · exact once_kept ((hwithin u).mp (hbody hv _ _ hr))

/-- Between the calls of a run the bodies of the calls in `P` have started once for each stored key,
and for each key that was called. -/
theorem Computes.once_of_run (hp : p.Computes P f) (hpure : p.Pure P)
    (hfresh : ∀ h, (fresh h).entries = []) {m : M} {cs : List C} {s : Machine H K V M}
    (h : p.Run fresh (.initial m) cs s) : p.Once fresh P (fun _ _ => False) s :=
  (h.preserves (Q := fun _ => True) (fun n c s o t _ => hp.call_settled hpure n c s o t)
    settled_write (fun _ _ => trivial)
    (show p.Settled fresh P f (.initial m) from ⟨sound_initial hfresh m, once_initial hfresh m⟩)).2

end Program

end Memoize
