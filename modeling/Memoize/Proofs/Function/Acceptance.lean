import Memoize.Proofs.Function.Keys
import Memoize.Proofs.Names.Fresh
import Memoize.Proofs.Scope.Standalone

/-!
# Functions that are memoized

Which functions are memoized, and what this does to the names of their scope. `Memoized.transform`
memoizes a function on names that it shares with others, in the order in which it is checked and
names are taken. Main statement: it succeeds exactly for the functions that are `Cacheable`, a
refusal leaves the names as they were, and a success takes the names that the body declares and that
of a holder, which is new; with an instance there is no holder, and no name is taken
(`Memoized.transform_spec`).

## Implementation notes

Names that a body declares are those that are looked for; a holder can have one of the others
(`Memoized.holder_of_used_name`).
-/

namespace Memoize

open TokenTree Syntax

namespace Memoized

/-! ### Memoization on shared names -/

/-- What ends with a value or fails, and changes names. -/
abbrev OnNames (α : Type) : Type := ExceptT Failure (StateM Names) α

/-- How it ends on names, and the names it leaves. -/
def OnNames.apply {α : Type} (x : OnNames α) (names : Names) : Except Failure α × Names :=
  StateT.run (ExceptT.run x) names

/-- A check that may refuse a function. -/
def refusing {α : Type} : Except (List Diagnostic) α → OnNames α
  | .ok a => pure a
  | .error ds => throw (.refused ds)

/-- Where the results of a function are kept: in a field, or in a holder whose name is allocated
after the names that the body declares are taken. -/
def takePlace (args : CacheArgs) (s : Signature) (body : List Statement) : OnNames Site := do
  match args.field? with
  | some field => return .field field
  | none =>
    modify fun names => names.reserveBlock body
    match (← get).allocate s.name.name with
    | none => throw .malformed
    | some (name, names) =>
      set names
      let kind : HolderKind := match args.holder with
        | some type => .custom type
        | none => .memo
      return .variable ⟨.name name, none⟩ kind (args.name.getD (unraw s.name.name))

/-- Memoizes the signature and body of one function. -/
def transform (args : CacheArgs) (s : Signature) (body : List Statement) (owner? : Option Owner) :
    OnNames Memoized := do
  if isInGenericBlock args owner? then
    throw (.refused [Refusal.genericBlock.at_ [.leaf s.name]])
  let p ← refusing (Parameters.extract (rules args owner?) s)
  refusing (checkReceiver args s p)
  let site ← takePlace args s body
  match build s p body site args.effectiveCratePath with
  | none => throw .malformed
  | some m => return m

variable {args : CacheArgs} {s : Signature} {body : List Statement} {names names' : Names}
  {owner? : Option Owner} {m : Memoized}

/-- What goes on with a value goes on with the names as they are then. -/
theorem OnNames.apply_bind {α β : Type} (x : OnNames α) (f : α → OnNames β) (names : Names) :
    (x >>= f).apply names =
      match x.apply names with
      | (.ok a, names) => (f a).apply names
      | (.error e, names) => (.error e, names) := by
  change StateT.run (ExceptT.run x >>= ExceptT.bindCont f) names = _
  rw [StateT.run_bind]
  unfold OnNames.apply
  generalize StateT.run (ExceptT.run x) names = r
  obtain ⟨a | a, names⟩ := r <;> rfl

section Moves

variable {α : Type}

@[simp] theorem OnNames.apply_throw (e : Failure) :
    (throw e : OnNames α).apply names = (.error e, names) := rfl

@[simp] theorem OnNames.apply_get : (get : OnNames Names).apply names = (.ok names, names) := rfl

@[simp] theorem OnNames.apply_modify (f : Names → Names) :
    (modify f : OnNames PUnit).apply names = (.ok ⟨⟩, f names) := rfl

@[simp] theorem apply_refusing_ok (a : α) : (refusing (.ok a)).apply names = (.ok a, names) := rfl

@[simp] theorem apply_refusing_error (ds : List Diagnostic) :
    (refusing (.error ds) : OnNames α).apply names = (.error (.refused ds), names) := rfl

end Moves

/-- A place is taken as `place` says, if there is one. -/
theorem apply_takePlace :
    (takePlace args s body).apply names =
      match place args s body names with
      | some (site, names) => (.ok site, names)
      | none => (.error .malformed, names.reserveBlock body) := by
  unfold takePlace place
  cases args.field? with
  | some field => rfl
  | none =>
    simp only [OnNames.apply_bind, OnNames.apply_modify, OnNames.apply_get]
    cases (names.reserveBlock body).allocate s.name.name with
    | none => rfl
    | some r => rfl

/-- Names are looked at only after a function is accepted. -/
theorem apply_transform :
    (transform args s body owner?).apply names =
      match accept args s owner? with
      | .error ds => (.error (.refused ds), names)
      | .ok p =>
        match (takePlace args s body).apply names with
        | (.error e, names) => (.error e, names)
        | (.ok site, names) =>
          match build s p body site args.effectiveCratePath with
          | none => (.error .malformed, names)
          | some m => (.ok m, names) := by
  unfold transform accept
  by_cases hgeneric : isInGenericBlock args owner? = true
  · simp [hgeneric]
  · rw [if_neg hgeneric, if_neg hgeneric]
    cases Parameters.extract (rules args owner?) s with
    | error ds => simp [OnNames.apply_bind]
    | ok p =>
      cases hreceiver : checkReceiver args s p with
      | error ds => simp [hreceiver, OnNames.apply_bind, Except.map]
      | ok u =>
        simp only [hreceiver, OnNames.apply_bind, Except.map, apply_refusing_ok]
        generalize (takePlace args s body).apply names = r
        obtain ⟨e | site, names⟩ := r
        · rfl
        · dsimp only
          cases build s p body site args.effectiveCratePath <;> rfl

/-- On shared names a function is memoized as by `parts`, and a refusal leaves the names as they
were. -/
theorem transform_eq_parts (args : CacheArgs) (s : Signature) (body : List Statement)
    (names : Names) (owner? : Option Owner) :
    ((transform args s body owner?).apply names).1 =
        (parts args s body names owner?).map (·.1) ∧
      (∀ ds, parts args s body names owner? = .error (.refused ds) →
        ((transform args s body owner?).apply names).2 = names) ∧
      ∀ m names', parts args s body names owner? = .ok (m, names') →
        ((transform args s body owner?).apply names).2 = names' := by
  rw [apply_transform, apply_takePlace]
  unfold parts
  cases accept args s owner? with
  | error ds => simp [Except.map]
  | ok p =>
    cases place args s body names with
    | none => simp [Except.map]
    | some r =>
      obtain ⟨site, new⟩ := r
      dsimp only
      cases build s p body site args.effectiveCratePath with
      | none => simp [Except.map]
      | some m =>
        refine ⟨rfl, by simp, fun m' names' h => ?_⟩
        exact (Prod.mk.inj (Except.ok.inj h)).2

/-! ### Functions that can be memoized -/

/-- What a function must be like to be memoized: it is neither deferred nor constant, has no generic
parameters but lifetimes, has types that resolve, and either its results go to a field and it
borrows its receiver, or it has no receiver and is in no generic block. -/
structure Cacheable (args : CacheArgs) (s : Signature) (owner? : Option Owner) : Prop where
  async : s.async? = none
  const : s.const? = none
  generics : ∀ p ∈ s.generics.params, p.isLifetime = true
  inputs : ∀ i ∈ s.typed, ∃ type, (rules args owner?).resolveParam i.2 = .ok type
  output : ∀ o ∈ s.output?, ∃ type, (rules args owner?).resolve o.2 = .ok type
  site : args.instance_.isSome ∧ (∃ r, s.receiver? = some r ∧ r.isBorrowed = true) ∨
    args.instance_ = none ∧ s.receiver? = none ∧ ∀ o ∈ owner?, o.isGeneric = false

/-- No qualifier is refused if there is none that must not be. -/
theorem checkQualifiers_eq_ok_iff :
    Parameters.checkQualifiers s = .ok () ↔
      s.async? = none ∧ s.const? = none ∧ ∀ p ∈ s.generics.params, p.isLifetime = true := by
  have hfind : s.generics.params.find? (!·.isLifetime) = none ↔
      ∀ p ∈ s.generics.params, p.isLifetime = true := by simp
  rw [← hfind]
  unfold Parameters.checkQualifiers
  cases s.async? <;> cases s.const? <;> cases s.generics.params.find? (!·.isLifetime) <;> simp

/-- Parameters are read off inputs if their types resolve. -/
theorem exists_paramsFrom_iff {rules : TypeRules} {n : Nat} {is : List Input} :
    (∃ ps, Parameters.paramsFrom rules n is = .ok ps) ↔
      ∀ i ∈ is.filterMap Input.typed?, ∃ type, rules.resolveParam i.2 = .ok type := by
  induction is generalizing n with
  | nil => simp [Parameters.paramsFrom]
  | cons i rest ih =>
    cases i with
    | receiver r => exact ih
    | typed attributes pattern colon type =>
      have hparam : (∃ p, Parameters.paramOf rules n pattern type = .ok p) ↔
          ∃ type', rules.resolveParam type = .ok type' := by
        unfold Parameters.paramOf
        cases rules.resolveParam type <;> simp [Except.map]
      have htyped : (Input.typed attributes pattern colon type :: rest).filterMap Input.typed? =
          (pattern, type) :: rest.filterMap Input.typed? := rfl
      rw [htyped, List.forall_mem_cons, ← hparam, ← ih (n := n + 1)]
      constructor
      · rintro ⟨ps, h⟩
        obtain ⟨p, qs, hp, hqs, -⟩ := paramsFrom_typed_eq_ok.mp h
        exact ⟨⟨p, hp⟩, qs, hqs⟩
      · rintro ⟨⟨p, hp⟩, qs, hqs⟩
        exact ⟨p :: qs, paramsFrom_typed_eq_ok.mpr ⟨p, qs, hp, hqs, rfl⟩⟩

/-- The result of a function is read off its signature if its type resolves. -/
theorem exists_resultOf_iff {rules : TypeRules} :
    (∃ output, Parameters.resultOf rules s = .ok output) ↔
      ∀ o ∈ s.output?, ∃ type, rules.resolve o.2 = .ok type := by
  unfold Parameters.resultOf
  cases s.output? with
  | none => simp
  | some o => simp

/-- A receiver fits where results are kept if it is borrowed for a field, and missing for a
variable. -/
theorem checkReceiver_eq_ok_iff {p : Parameters} (hp : p.receiver? = s.receiver?) :
    checkReceiver args s p = .ok () ↔
      args.field?.isSome ∧ (∃ r, s.receiver? = some r ∧ r.isBorrowed = true) ∨
        args.field? = none ∧ s.receiver? = none := by
  unfold checkReceiver Parameters.hasBorrowedReceiver
  rw [hp]
  cases args.field? <;> cases s.receiver? <;> simp

/-- Functions are accepted if they can be memoized, if the arguments that name an instance name a
field of it. -/
theorem exists_accept_iff (hfield : args.instance_.isSome → args.field?.isSome) :
    (∃ p, accept args s owner? = .ok p) ↔ Cacheable args s owner? := by
  have hinstance : args.field?.isSome = args.instance_.isSome := by
    cases hi : args.instance_ with
    | none => simp [CacheArgs.field?, hi]
    | some i => simpa [hi] using hfield
  simp only [accept_eq_ok_iff, extract_eq_ok_iff]
  constructor
  · rintro ⟨p, hgeneric, ⟨hqualifiers, ps, output, hps, hresult, rfl⟩, hreceiver⟩
    obtain ⟨hasync, hconst, hgenerics⟩ := checkQualifiers_eq_ok_iff.mp hqualifiers
    refine ⟨hasync, hconst, hgenerics, ?_, exists_resultOf_iff.mp ⟨output, hresult⟩, ?_⟩
    · have hinputs := exists_paramsFrom_iff.mp ⟨ps, hps⟩
      rwa [List.filterMap_map] at hinputs
    · rcases (checkReceiver_eq_ok_iff rfl).mp hreceiver with ⟨hf, hr⟩ | ⟨hf, hr⟩
      · exact Or.inl ⟨hinstance ▸ hf, hr⟩
      · refine Or.inr ⟨by simpa [hf] using hinstance, hr, fun o ho => ?_⟩
        obtain rfl := ho
        simpa [isInGenericBlock, hf] using hgeneric
  · rintro ⟨hasync, hconst, hgenerics, hinputs, houtput, hsite⟩
    obtain ⟨ps, hps⟩ :
        ∃ ps, Parameters.paramsFrom (rules args owner?) 0 (s.inputs.map (·.1)) = .ok ps := by
      refine exists_paramsFrom_iff.mpr ?_
      rw [List.filterMap_map]
      exact hinputs
    obtain ⟨output, hresult⟩ := exists_resultOf_iff.mpr houtput
    refine ⟨_, ?_, ⟨checkQualifiers_eq_ok_iff.mpr ⟨hasync, hconst, hgenerics⟩, ps, output, hps,
      hresult, rfl⟩, (checkReceiver_eq_ok_iff rfl).mpr ?_⟩
    · rcases hsite with ⟨hi, -⟩ | ⟨-, -, howner⟩
      · rw [← hinstance] at hi
        simp [isInGenericBlock, Option.isNone_eq_false_iff.mpr hi]
      · cases howner' : owner? with
        | none => simp [isInGenericBlock]
        | some o => simp [isInGenericBlock, howner o howner']
    · rcases hsite with ⟨hi, hr⟩ | ⟨hi, hr, -⟩
      · exact Or.inl ⟨hinstance ▸ hi, hr⟩
      · refine Or.inr ⟨?_, hr⟩
        simp [CacheArgs.field?, hi]

/-! ### What becomes of the names -/

/-- A place in a field takes no name, and a variable takes those that the body declares and one for
a holder that is none of them. -/
theorem place_takes {site : Site} (h : place args s body names = some (site, names')) :
    (args.field?.isSome → (∃ field, site = .field field) ∧ names' = names) ∧
      (args.field? = none → ∃ x kind cacheName, site = .variable ⟨.name x, none⟩ kind cacheName ∧
        names'.owner = names.owner ∧
        (∀ y, y ∈ names'.taken ↔
          y ∈ names.taken ∨ y ∈ (body.flatMap Statement.declares).map unraw ∨ y = x) ∧
        x ∉ names.taken ∧ x ∉ (body.flatMap Statement.declares).map unraw ∧
        Names.HasHolderForm x) := by
  unfold place at h
  cases hfield : args.field? with
  | some field =>
    rw [hfield] at h
    obtain ⟨rfl, rfl⟩ := Prod.mk.inj (Option.some.inj h)
    exact ⟨fun _ => ⟨⟨field, rfl⟩, rfl⟩, fun hnone => by cases hnone⟩
  | none =>
    rw [hfield] at h
    obtain ⟨⟨x, new⟩, hallocate, heq⟩ := Option.map_eq_some_iff.mp h
    obtain ⟨rfl, rfl⟩ := Prod.mk.inj heq
    obtain ⟨rfl, rfl⟩ := Names.allocate_eq_some hallocate
    obtain ⟨hfree, -⟩ := Names.freshNumber_spec (names.reserveBlock body)
      ((names.reserveBlock body).base s.name.name)
    simp only [Names.reserveBlock, Names.mem_reserveAll, not_or] at hfree
    refine ⟨(by simp), fun _ => ⟨_, _, _, rfl, ?_, fun y => ?_, hfree.2, hfree.1, ?_⟩⟩
    · simp [Names.reserveBlock]
    · simp only [Names.reserveBlock, Names.mem_take, Names.mem_reserveAll]
      tauto
    · exact Names.hasHolderForm_base _ _ _

/-- **Exactly the functions that can be memoized are, or nothing changes.** Arguments that can be
read, a function for which the added code is code, and names that it shares. It is memoized exactly
if it is `Cacheable`. If it is refused, the names are what they were. If it is memoized with an
instance, it has no holder, and the names are what they were, so an instance never becomes a
variable. If it is memoized without one, it has a holder; the names that are taken then are those
that were, those that the body declares, and that of the holder, which was neither. -/
theorem transform_spec {arguments : List TokenTree} (hparse : CacheArgs.parse arguments = .ok args)
    (hcode : ((transform args s body owner?).apply names).1 ≠ .error .malformed) :
    ((∃ m, ((transform args s body owner?).apply names).1 = .ok m) ↔ Cacheable args s owner?) ∧
    (∀ e, ((transform args s body owner?).apply names).1 = .error e →
      ((transform args s body owner?).apply names).2 = names) ∧
    ∀ m names', (transform args s body owner?).apply names = (.ok m, names') →
      (args.instance_.isSome → m.holder? = none ∧ names' = names) ∧
      (args.instance_ = none → ∃ h x, m.holder? = some h ∧ h.name = ⟨.name x, none⟩ ∧
        names'.owner = names.owner ∧
        (∀ y, y ∈ names'.taken ↔
          y ∈ names.taken ∨ y ∈ (body.flatMap Statement.declares).map unraw ∨ y = x) ∧
        x ∉ names.taken ∧ x ∉ (body.flatMap Statement.declares).map unraw ∧
        Names.HasHolderForm x) := by
  have hfield := Scope.field?_isSome_of_parse hparse
  obtain ⟨hend, hrefused, hkept⟩ := transform_eq_parts args s body names owner?
  rw [hend] at hcode ⊢
  -- What fails without being refused was excluded, so every failure is one of `accept`.
  refine ⟨?_, fun e he => ?_, fun m names' h => ?_⟩
  · rw [← exists_accept_iff hfield]
    cases hparts : parts args s body names owner? with
    | ok r =>
      obtain ⟨p, -, haccept, -⟩ := parts_eq_ok_iff.mp hparts
      exact iff_of_true ⟨r.1, rfl⟩ ⟨p, haccept⟩
    | error e =>
      cases e with
      | malformed =>
        rw [hparts] at hcode
        exact absurd rfl hcode
      | refused ds =>
        refine iff_of_false (by simp [Except.map]) ?_
        rintro ⟨p, haccept⟩
        rw [parts_eq_refused_iff.mp hparts] at haccept
        cases haccept
  · cases hparts : parts args s body names owner? with
    | ok r => simp [hparts, Except.map] at he
    | error e' =>
      cases e' with
      | malformed =>
        rw [hparts] at hcode
        exact absurd rfl hcode
      | refused ds => exact hrefused ds hparts
  · rw [h] at hend hkept
    cases hparts : parts args s body names owner? with
    | error e => simp [hparts, Except.map] at hend
    | ok r =>
      obtain ⟨m', new⟩ := r
      rw [hparts] at hend
      obtain rfl := Except.ok.inj hend
      obtain rfl := hkept _ _ hparts
      obtain ⟨p, site, -, hplace, -, rfl⟩ := parts_eq_ok_iff.mp hparts
      obtain ⟨hinstance, hvariable⟩ := place_takes hplace
      refine ⟨fun hi => ?_, fun hi => ?_⟩
      · obtain ⟨⟨field, rfl⟩, hnames⟩ := hinstance (hfield hi)
        exact ⟨rfl, hnames⟩
      · obtain ⟨x, kind, cacheName, rfl, htaken⟩ := hvariable (by simp [CacheArgs.field?, hi])
        exact ⟨_, x, rfl, rfl, htaken⟩

/-- A function on its own as a text, what memoizing it without arguments on no names gives, and the
names that are taken then. -/
def transformed? (function : String) : Option (Function × Memoized × Names) :=
  (readFunction? function).bind fun f =>
    match (transform .none f.signature f.body none).apply .empty with
    | (.ok m, names) => some (f, m, names)
    | (.error _, _) => none

/-- What such a function is. -/
theorem transformed?_eq_some {function : String} {f : Function}
    (h : transformed? function = some (f, m, names)) :
    readFunction? function = some f ∧
      (transform .none f.signature f.body none).apply .empty = (.ok m, names) := by
  obtain ⟨f', hf, h⟩ := Option.bind_eq_some_iff.mp h
  split at h
  · rename_i m' names' htransform
    cases h
    exact ⟨hf, htransform⟩
  · cases h

/-- A function whose body declares a constant by the first name for its holder. -/
def shadowingFunction : String :=
  "fn f(x: u8) -> u8 \x7b const __F_CACHE_0: u8 = 1; x \x7d"

/-- The holder of such a function has the second name, and both are taken. -/
theorem transform_spec_shadowing :
    ∃ f m names' h, readFunction? shadowingFunction = some f ∧
      CacheArgs.parse [] = .ok .none ∧ Cacheable .none f.signature none ∧
      (transform .none f.signature f.body none).apply .empty = (.ok m, names') ∧
      m.holder? = some h ∧ h.name.name = "__F_CACHE_1" ∧
      ∀ y, y ∈ names'.taken ↔ y = "__F_CACHE_0" ∨ y = "__F_CACHE_1" := by
  have hrun : (transformed? shadowingFunction).bind (fun r => r.2.1.holder?.map fun h =>
      (h.name.name, r.1.body.flatMap Statement.declares)) =
      some ("__F_CACHE_1", ["__F_CACHE_0"]) := by
    decide +kernel
  obtain ⟨⟨f, m, names'⟩, hread, hrun⟩ := Option.bind_eq_some_iff.mp hrun
  obtain ⟨h, hholder, heq⟩ := Option.map_eq_some_iff.mp hrun
  obtain ⟨hname, hdeclares⟩ := Prod.mk.inj heq
  obtain ⟨hf, htransform⟩ := transformed?_eq_some hread
  have hparse : CacheArgs.parse [] = .ok .none := rfl
  have hcode : ((transform .none f.signature f.body none).apply .empty).1 ≠ .error .malformed := by
    simp [htransform]
  obtain ⟨hiff, -, hkept⟩ := transform_spec hparse hcode
  obtain ⟨h', x, hholder', hx, -, htaken, -⟩ := (hkept m names' htransform).2 rfl
  obtain rfl := Option.some.inj (hholder.symm.trans hholder')
  refine ⟨f, m, names', h, hf, hparse, hiff.mp ⟨m, by rw [htransform]⟩, htransform, hholder, hname,
    fun y => ?_⟩
  rw [hx] at hname
  obtain rfl : x = "__F_CACHE_1" := hname
  rw [htaken, hdeclares]
  simp [Names.empty, unraw]

/-- A function whose body uses something under the first name for its holder, in a form that is kept
as it is written. -/
def usingFunction : String :=
  "fn f() -> u8 \x7b use \x7b::a::b as __F_CACHE_0\x7d; 1 \x7d"

/-- The holder of a function can have a name that an item of the body declares. -/
theorem holder_of_used_name :
    ∃ f m names' h, readFunction? usingFunction = some f ∧
      (transform .none f.signature f.body none).apply .empty = (.ok m, names') ∧
      m.holder? = some h ∧ h.name.name = "__F_CACHE_0" ∧
      ∃ st ∈ f.body, ∃ i, parseItem? st.phrase.tokens = some i ∧
        "__F_CACHE_0" ∈ i.declaresFurther := by
  have hrun : (transformed? usingFunction).bind (fun r => r.2.1.holder?.map fun h =>
      (h.name.name, r.1.body.any fun st => (parseItem? st.phrase.tokens).any fun i =>
        i.declaresFurther.contains "__F_CACHE_0")) = some ("__F_CACHE_0", true) := by
    decide +kernel
  obtain ⟨⟨f, m, names'⟩, hread, hrun⟩ := Option.bind_eq_some_iff.mp hrun
  obtain ⟨h, hholder, heq⟩ := Option.map_eq_some_iff.mp hrun
  obtain ⟨hname, hdeclares⟩ := Prod.mk.inj heq
  obtain ⟨hf, htransform⟩ := transformed?_eq_some hread
  obtain ⟨st, hst, hitem⟩ := List.any_eq_true.mp hdeclares
  obtain ⟨i, hi, hmem⟩ := (Option.any_eq_true _ _).mp hitem
  exact ⟨f, m, names', h, hf, htransform, hholder, hname, st, hst, i, hi,
    List.contains_iff_mem.mp hmem⟩

end Memoized

end Memoize
