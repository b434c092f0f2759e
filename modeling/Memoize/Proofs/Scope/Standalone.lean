import Memoize.Proofs.Function.Renaming
import Memoize.Proofs.Scope.Refusals

/-!
# Functions in a scope and on their own

A function can be memoized in a scope, where its attribute is taken off, or on its own. Main
statement: for an item of a module both end alike (`placements_agree`), with the path to the runtime
that the scope gives: both memoize it, and the results are the same but for the name of the holder,
or both refuse it with the same diagnostics. Where results go to a field of the instance, the
results are the same without exception.

## Implementation notes

On its own a function has no word `default` before it, so that a method with this word, which is
memoized in its block, cannot be memoized alone (`default_method_not_alone`).
-/

namespace Memoize

/-- The arguments of a function in a scope: the path to the runtime is that of the scope if there is
none among them. -/
def CacheArgs.within (args : CacheArgs) (scope : ScopeArgs) : CacheArgs :=
  { args with cratePath := args.cratePath.orElse fun _ => scope.cratePath }

/-- The function with another name for its holder. -/
def MemoizedFunction.renameHolder (f : MemoizedFunction) (new : Token) : MemoizedFunction :=
  { f with parts := f.parts.renameHolder new }

/-- Functions that are the same but for the name of the holder. -/
def MemoizedFunction.SameButHolder (f g : MemoizedFunction) : Prop :=
  ∃ t, f = g.renameHolder t

namespace Scope

/-! ### Functions on their own -/

/-- Expands a definition on its own, by the arguments that it has in a scope. -/
def standalone (scope : ScopeArgs) (arguments item : List TokenTree) : Except Failure Expansion :=
  match CacheArgs.parse arguments with
  | .error fs => .error (.refused (fs.map ArgumentFault.diagnostic))
  | .ok args => (Expansion.of (args.within scope) item .empty).map (·.1)

/-- In a scope without arguments, that is what the attribute for functions makes of the definition.
-/
theorem cached_eq_standalone (arguments item : List TokenTree) :
    cached arguments item =
      match standalone ⟨none⟩ arguments item with
      | .ok e => some e.tokens
      | .error (.refused ds) => some (withErrors item ds)
      | .error .malformed => none := by
  unfold cached standalone
  cases CacheArgs.parse arguments with
  | error fs => rfl
  | ok args =>
    have hwithin : args.within ⟨none⟩ = args := by
      obtain ⟨_, _, _, _ | _⟩ := args <;> rfl
    simp only [hwithin]
    cases Expansion.of args item .empty with
    | error e => cases e <;> rfl
    | ok r => rfl

/-- The ends of a function in a scope and on its own that are alike: it is memoized, and the results
are related, it is refused for the same reasons, or the added code is no code. -/
inductive SameEnd (R : MemoizedFunction → MemoizedFunction → Prop) :
    Option (Outcome × Names) → Except Failure Expansion → Prop
  | memoized {f g : MemoizedFunction} (related : R f g) (names : Names) :
      SameEnd R (some (.memoized f, names)) (.ok (.transformed g))
  | refused (f : Function) (ds : List Diagnostic) (names : Names) :
      SameEnd R (some (.refused f ds, names)) (.error (.refused ds))
  | malformed : SameEnd R none (.error .malformed)

/-- Whether a function is memoized in its scope. -/
def memoizes : Option (Outcome × Names) → Bool
  | some (.memoized _, _) => true
  | _ => false

/-- Whether a definition is memoized on its own. -/
def memoizesAlone : Except Failure Expansion → Bool
  | .ok (.transformed _) => true
  | _ => false

/-- Where the ends are alike, a function is memoized in both places or in none. -/
theorem SameEnd.memoizes_eq {R : MemoizedFunction → MemoizedFunction → Prop}
    {x : Option (Outcome × Names)} {y : Except Failure Expansion} (h : SameEnd R x y) :
    memoizes x = memoizesAlone y := by
  cases h <;> rfl

variable {scope : ScopeArgs} {owner? : Option Owner} {names : Names} {f g : Function}
  {a : Attribute} {arguments text : List TokenTree}

/-- A function ends alike in a scope and on its own if its parts are the same for all arguments that
can be read. -/
theorem sameEnd_of_parts {R : MemoizedFunction → MemoizedFunction → Prop}
    (htake : f.takeCached = some (a, g)) (harguments : a.arguments = .ok arguments)
    (htext : Syntax.parseFunction? text = some g)
    (hparts : ∀ args, CacheArgs.parse arguments = .ok args →
      Memoized.SameParts (fun m m' => R (.of g m) (.of g m'))
        (Memoized.parts (args.within scope) g.signature g.body names owner?)
        (Memoized.parts (args.within scope) g.signature g.body .empty none)) :
    SameEnd R (function scope owner? names f) (standalone scope arguments text) := by
  simp only [function, htake, memoize, harguments, standalone]
  cases hparse : CacheArgs.parse arguments with
  | error fs => exact .refused g _ names
  | ok args =>
    simp only [Expansion.of, htext]
    have hwithin : { args with cratePath := args.cratePath.orElse fun _ => scope.cratePath } =
      args.within scope := rfl
    rw [hwithin]
    have h := hparts args hparse
    generalize Memoized.parts (args.within scope) g.signature g.body names owner? = x at h ⊢
    generalize Memoized.parts (args.within scope) g.signature g.body .empty none = y at h ⊢
    cases h with
    | ok related names' _ => exact .memoized related names'
    | error e =>
      cases e with
      | refused ds => exact .refused g ds names
      | malformed => exact .malformed

/-! ### Functions at their positions -/

/-- The names that are taken when a function in a gap is come to. The answer is nothing if the added
code for an earlier function would be no code. -/
def Position.names? (scope : ScopeArgs) (f : Function) : Position → Option Names
  | item _ before after =>
    (items scope (Names.ofItems (before ++ .function f :: after)) before).map (·.2)
  | memberInModule _ before b earlier later after =>
    (items scope (Names.ofItems (before ++
      .block (blockWith b (earlier ++ .function f :: later)) :: after)) before).bind fun r =>
        (members scope (.of b) r.2 earlier).map (·.2)
  | member b earlier later =>
    (members scope (.of b) (blockNames (blockWith b (earlier ++ .function f :: later)))
      earlier).map (·.2)

namespace Position

variable {p : Position}

/-- The names at an item of a module have no owner. -/
theorem owner_of_names? (h : p.names? scope f = some names) (hitem : p.owner? = none) :
    names.owner = none := by
  cases p with
  | item head before after =>
    obtain ⟨⟨js, new⟩, hrun, rfl⟩ := Option.map_eq_some_iff.mp h
    rw [(items_serves hrun).owner_eq]
    exact Names.owner_reserveAll _ _
  | memberInModule head before b earlier later after => cases hitem
  | member b earlier later => cases hitem

/-- What a list with an element after a beginning has at the place after the beginning. -/
theorem getElem?_after {α : Type} {xs ys : List α} {x : α} {n : Nat} (h : xs.length = n) :
    (xs ++ x :: ys)[n]? = some x := by
  subst h
  simp

/-- When a scope is treated, each function in it is come to, and its outcome stands at its place. -/
theorem outcome_of_treat {t : Treated} (h : treat scope (p.fill f) = some t) :
    ∃ names names' o, p.names? scope f = some names ∧
      function scope p.owner? names f = some (o, names') ∧
      t.outcomes[p.before.length]? = some o := by
  cases p with
  | item head before after =>
    obtain ⟨m, hm, rfl⟩ := Option.map_eq_some_iff.mp h
    obtain ⟨⟨js, last⟩, hrun, rfl⟩ := Option.map_eq_some_iff.mp hm
    obtain ⟨js₁, names, j, names', js₂, h₁, hj, -, rfl⟩ := items_split hrun
    obtain ⟨⟨o, new⟩, ho, heq⟩ := Option.map_eq_some_iff.mp hj
    obtain ⟨rfl, rfl⟩ := Prod.mk.inj heq
    refine ⟨names, new, o, by simp only [names?, h₁, Option.map_some], ho, ?_⟩
    simp only [NewModule.outcomes, List.flatMap_append, List.flatMap_cons]
    exact getElem?_after (outcomes_of_items h₁).1
  | memberInModule head before b earlier later after =>
    obtain ⟨m, hm, rfl⟩ := Option.map_eq_some_iff.mp h
    obtain ⟨⟨js, last⟩, hrun, rfl⟩ := Option.map_eq_some_iff.mp hm
    obtain ⟨js₁, names₁, j, names₂, js₂, h₁, hj, -, rfl⟩ := items_split hrun
    obtain ⟨⟨b', new⟩, hb, heq⟩ := Option.map_eq_some_iff.mp hj
    obtain ⟨rfl, rfl⟩ := Prod.mk.inj heq
    obtain ⟨⟨ks, new'⟩, hks, heq⟩ := Option.map_eq_some_iff.mp hb
    obtain ⟨rfl, rfl⟩ := Prod.mk.inj heq
    obtain ⟨ks₁, names, o, names', ks₂, hk₁, ho, -, rfl⟩ := members_split hks
    refine ⟨names, names', o, ?_, ho, ?_⟩
    · simp only [names?, h₁, Option.bind_some]
      exact congrArg (Option.map _) hk₁
    · simp only [NewModule.outcomes, NewItem.outcomes, List.flatMap_append, List.flatMap_cons,
        NewMember.outcomes, List.append_assoc, List.cons_append]
      rw [← List.append_assoc]
      refine getElem?_after ?_
      rw [List.length_append, (outcomes_of_items h₁).1, (outcomes_of_members hk₁).1]
      exact List.length_append.symm
  | member b earlier later =>
    obtain ⟨⟨b', new⟩, hb, rfl⟩ := Option.map_eq_some_iff.mp h
    obtain ⟨⟨ks, new'⟩, hks, heq⟩ := Option.map_eq_some_iff.mp hb
    obtain ⟨rfl, rfl⟩ := Prod.mk.inj heq
    obtain ⟨ks₁, names, o, names', ks₂, hk₁, ho, -, rfl⟩ := members_split hks
    refine ⟨names, names', o, ?_, ho, ?_⟩
    · exact congrArg (Option.map _) hk₁
    · simp only [NewBlock.outcomes, List.flatMap_append, List.flatMap_cons]
      exact getElem?_after (outcomes_of_members hk₁).1

end Position

/-- Arguments that can be read and have an instance name a field of it. -/
theorem field?_isSome_of_parse {args : CacheArgs} (h : CacheArgs.parse arguments = .ok args)
    (hinstance : args.instance_.isSome) : args.field?.isSome := by
  have hconsistent : args.contradiction? = none := by
    unfold CacheArgs.parse at h
    split at h
    · cases h
    · split at h
      · split at h
        · cases h
        · rename_i hnone
          obtain rfl := Except.ok.inj h
          exact hnone
      · cases h
  obtain ⟨i, hi⟩ := Option.isSome_iff_exists.mp hinstance
  simp only [CacheArgs.field?, hi, Option.bind_some]
  cases hsingle : i.single? with
  | some field => rfl
  | none => cases hholder : args.holder <;>
      simp [CacheArgs.contradiction?, hi, hholder, hsingle] at hconsistent

/-- When a function of a scope is come to, it ends as it does on its own, by the same arguments and
the path to the runtime of the scope: an item of a module up to the name of its holder, and a method
whose results go to a field altogether. If the scope is treated to its end, what became of the
function stands at its place among the outcomes, from which the code of the scope is made. -/
theorem placements_agree (scope : ScopeArgs) (p : Position) (f g : Function) (a : Attribute)
    (arguments text : List TokenTree) (htake : f.takeCached = some (a, g))
    (harguments : a.arguments = .ok arguments) (htext : Syntax.parseFunction? text = some g) :
    (∀ names, p.names? scope f = some names →
      (p.owner? = none →
        SameEnd MemoizedFunction.SameButHolder (function scope p.owner? names f)
          (standalone scope arguments text)) ∧
      ∀ args, CacheArgs.parse arguments = .ok args → args.instance_.isSome →
        SameEnd Eq (function scope p.owner? names f) (standalone scope arguments text)) ∧
    ∀ t, treat scope (p.fill f) = some t →
      (∃ names names' o, p.names? scope f = some names ∧
        function scope p.owner? names f = some (o, names') ∧
        t.outcomes[p.before.length]? = some o) ∧
      ∀ ts, Syntax.parseItem? ts = some (p.fill f) →
        expandWith scope ts = some (withErrors t.tokens t.diagnostics) := by
  refine ⟨fun names hnames => ⟨fun hitem => ?_, fun args hparse hinstance => ?_⟩, fun t ht =>
    ⟨Position.outcome_of_treat ht, fun ts hts => expandWith_of_treat hts ht⟩⟩
  · refine sameEnd_of_parts htake harguments htext fun args _ => ?_
    rw [hitem]
    refine (Memoized.sameParts_of_owner (Position.owner_of_names? hnames hitem)).mono ?_
    rintro _ m ⟨t, rfl⟩
    exact ⟨t, rfl⟩
  · refine sameEnd_of_parts htake harguments htext fun args' hparse' => ?_
    obtain rfl := Except.ok.inj (hparse.symm.trans hparse')
    have hfield := field?_isSome_of_parse hparse hinstance
    have hwithin : (args.within scope).field?.isSome := hfield
    refine (Memoized.sameParts_of_field hwithin).mono ?_
    rintro m _ rfl
    rfl

/-- What is read without a fault is read. -/
theorem ok_of_toOption {ε α : Type} {x : Except ε α} {v : α} (h : x.toOption = some v) :
    x = .ok v := by
  cases x with
  | ok w => exact congrArg Except.ok (Option.some.inj h)
  | error e => cases h

/-- A scope that names the runtime. -/
def namedRuntime : ScopeArgs := ⟨some (.ofName ⟨.name "runtime", none⟩)⟩

/-- A module with a constant that has the name of a holder. -/
def takenModule : String := "mod m \x7b const __F_CACHE_0: u8 = 0; \x7d"

/-- An attribute, and a function without it. -/
def shortFunction? : Option (Attribute × List TokenTree × Function) :=
  ((TokenTree.lex 0 "#[cached(name = \"n\")]").bind Syntax.parseAttributes?).bind fun as =>
    as.head?.bind fun a => (TokenTree.lex 1 "fn f(x: u8) -> u8 \x7b x \x7d").bind fun ts =>
      (Syntax.parseFunction? ts).map fun g => (a, ts, g)

/-- A function with an attribute before it. -/
def annotate (a : Attribute) (g : Function) : Function := { g with outer := a :: g.outer }

/-- After such a constant a function is memoized as it is alone, but for the name of its holder. -/
theorem placements_agree_taken :
    ∃ head is a arguments text g names names' r s, readModule? takenModule = some (head, is) ∧
      shortFunction? = some (a, text, g) ∧ (annotate a g).takeCached = some (a, g) ∧
      a.arguments = .ok arguments ∧ Syntax.parseFunction? text = some g ∧
      (Position.item head is []).names? namedRuntime (annotate a g) = some names ∧
      function namedRuntime none names (annotate a g) = some (.memoized r, names') ∧
      standalone namedRuntime arguments text = .ok (.transformed s) ∧
      r.SameButHolder s ∧ r.parts.holder?.map (·.name.name) = some "__F_CACHE_1" ∧
      s.parts.holder?.map (·.name.name) = some "__F_CACHE_0" := by
  have hrun : (readModule? takenModule).bind (fun q => shortFunction?.bind fun v =>
      v.1.arguments.toOption.bind fun arguments =>
        ((Position.item q.1 q.2 []).names? namedRuntime (annotate v.1 v.2.2)).map fun names =>
          (v.1.isCached,
            (function namedRuntime none names (annotate v.1 v.2.2)).map fun r =>
              r.1.holder?.map (·.name.name),
            match standalone namedRuntime arguments v.2.1 with
            | .ok (.transformed s) => s.parts.holder?.map (·.name.name)
            | _ => none)) =
      some (true, some (some "__F_CACHE_1"), some "__F_CACHE_0") := by
    decide +kernel
  obtain ⟨⟨head, is⟩, hread, hrun⟩ := Option.bind_eq_some_iff.mp hrun
  obtain ⟨⟨a, text, g⟩, hshort, hrun⟩ := Option.bind_eq_some_iff.mp hrun
  obtain ⟨arguments, harguments, hrun⟩ := Option.bind_eq_some_iff.mp hrun
  obtain ⟨names, hnames, hrun⟩ := Option.map_eq_some_iff.mp hrun
  simp only [Prod.mk.injEq] at hrun
  obtain ⟨hcached, hin, halone⟩ := hrun
  have harguments := ok_of_toOption harguments
  have htake : (annotate a g).takeCached = some (a, g) := by
    simp [annotate, Function.takeCached, Attribute.takeCached, hcached]
  have htext : Syntax.parseFunction? text = some g := by
    simp only [shortFunction?, Option.bind_eq_some_iff, Option.map_eq_some_iff] at hshort
    obtain ⟨as, -, a', -, ts, -, g', hparse, heq⟩ := hshort
    obtain ⟨-, rfl, rfl⟩ := Prod.mk.inj heq
    exact hparse
  have hagree := (placements_agree namedRuntime (.item head is []) (annotate a g) g a arguments
    text htake harguments htext).1 names hnames
  have hend : SameEnd MemoizedFunction.SameButHolder
      (function namedRuntime none names (annotate a g)) (standalone namedRuntime arguments text) :=
    hagree.1 rfl
  generalize hscope : function namedRuntime none names (annotate a g) = x at hend hin
  generalize hlone : standalone namedRuntime arguments text = y at hend halone
  cases hend with
  | memoized related names' =>
    exact ⟨head, is, a, arguments, text, g, names, names', _, _, hread, hshort, htake, harguments,
      htext, hnames, hscope, hlone, related, Option.some.inj hin, halone⟩
  | refused f ds names' => cases Option.some.inj hin
  | malformed => cases hin

/-- A module with a method that is marked as a default. -/
def defaultModule : String :=
  "mod m \x7b impl Norm for Vector \x7b " ++
    "#[cached(instance = memo)] default fn norm(&self) -> u8 \x7b 1 \x7d \x7d \x7d"

/-- The function of a module that has one, with its owner, and its attribute with the function
without it. -/
def single? (is : List Item) : Option ((Option Owner × Function) × Attribute × Function) :=
  match is.flatMap itemFunctions with
  | [p] => p.2.takeCached.map fun r => (p, r)
  | _ => none

/-- A method marked as a default is memoized in its block, and is no function of its own. -/
theorem default_method_not_alone :
    ∃ head is m p a g arguments args o, readModule? defaultModule = some (head, is) ∧
      single? is = some (p, a, g) ∧ a.arguments = .ok arguments ∧
      CacheArgs.parse arguments = .ok args ∧ args.instance_.isSome = true ∧
      module ⟨none⟩ head is = some m ∧ m.outcomes = [o] ∧
      ∀ names, ¬ SameEnd Eq (some (o, names)) (standalone ⟨none⟩ arguments g.tokens) := by
  have hrun : (readModule? defaultModule).bind (fun q => (single? q.2).bind fun r =>
      r.2.1.arguments.toOption.bind fun arguments =>
        (CacheArgs.parse arguments).toOption.bind fun args =>
          (module ⟨none⟩ q.1 q.2).map fun m =>
            (args.instance_.isSome, m.outcomes.map fun o => memoizes (some (o, .empty)),
              memoizesAlone (standalone ⟨none⟩ arguments r.2.2.tokens))) =
      some (true, [true], false) := by
    decide +kernel
  obtain ⟨⟨head, is⟩, hread, hrun⟩ := Option.bind_eq_some_iff.mp hrun
  obtain ⟨⟨p, a, g⟩, hsingle, hrun⟩ := Option.bind_eq_some_iff.mp hrun
  obtain ⟨arguments, harguments, hrun⟩ := Option.bind_eq_some_iff.mp hrun
  obtain ⟨args, hargs, hrun⟩ := Option.bind_eq_some_iff.mp hrun
  obtain ⟨m, hm, hrun⟩ := Option.map_eq_some_iff.mp hrun
  simp only [Prod.mk.injEq] at hrun
  obtain ⟨hinstance, houtcomes, halone⟩ := hrun
  obtain ⟨o, ho, hmemoizes⟩ := List.map_eq_singleton_iff.mp houtcomes
  refine ⟨head, is, m, p, a, g, arguments, args, o, hread, hsingle, ?_, ?_, hinstance, hm, ho, ?_⟩
  · exact ok_of_toOption harguments
  · exact ok_of_toOption hargs
  · intro names hend
    have heq : memoizes (some (o, names)) = memoizes (some (o, .empty)) := by cases o <;> rfl
    rw [← heq, hend.memoizes_eq, halone] at hmemoizes
    exact Bool.false_ne_true hmemoizes

end Scope

end Memoize
