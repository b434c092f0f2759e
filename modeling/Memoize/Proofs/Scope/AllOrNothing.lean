import Memoize.Proofs.Grammar.Declarations
import Memoize.Proofs.Scope.Standalone

/-!
# All or nothing

A definition with the attribute for functions is either rewritten with its complete holder and
without a diagnostic, or kept token by token and followed by diagnostics only. Main statement:
`all_or_nothing` tells the two apart by what is read, for every stream on which `cached` gives code;
attributes for scopes keep what they cannot treat in the same way.

## Implementation notes

A function declaration without a body is followed by an error only if it has no visibility, since it
is read by the rule for traits. One with a visibility, as it occurs in blocks of foreign functions,
is followed by a warning (`public_declaration_warned`).
-/

namespace Memoize

open TokenTree Code Syntax

/-! ### Faults and refusals are never empty -/

/-- Arguments that cannot be read have a fault. -/
theorem CacheArgs.parse_error_ne_nil {ts : List TokenTree} {fs : List ArgumentFault}
    (h : CacheArgs.parse ts = .error fs) : fs ≠ [] := by
  unfold CacheArgs.parse at h
  split at h
  · cases h
    simp
  · split at h
    · split at h <;> cases h
      simp
    · rename_i hne _
      cases h
      rintro rfl
      simp_all

/-- Arguments for scopes that cannot be read have a fault. -/
theorem ScopeArgs.parse_error_ne_nil {ts : List TokenTree} {fs : List ArgumentFault}
    (h : ScopeArgs.parse ts = .error fs) : fs ≠ [] := by
  unfold ScopeArgs.parse at h
  split at h
  · cases h
    simp
  · split at h
    · cases h
    · cases h
      rintro rfl
      simp_all

/-- A type that does not resolve has an offence. -/
theorem TypeRules.resolve_error_ne_nil {rules : TypeRules} {type : Phrase} {ds : List Diagnostic}
    (h : rules.resolve type = .error ds) : ds ≠ [] := by
  unfold TypeRules.resolve at h
  split at h
  · cases h
  · cases h
    assumption

/-- A parameter type that does not resolve has an offence. -/
theorem TypeRules.resolveParam_error_ne_nil {rules : TypeRules} {type : Phrase}
    {ds : List Diagnostic} (h : rules.resolveParam type = .error ds) : ds ≠ [] := by
  unfold TypeRules.resolveParam at h
  split at h
  · rename_i target _
    cases hresolve : rules.resolve target with
    | ok t => simp [hresolve, Except.map] at h
    | error e =>
      rw [hresolve] at h
      obtain rfl := Except.error.inj h
      exact TypeRules.resolve_error_ne_nil hresolve
  · exact TypeRules.resolve_error_ne_nil h

namespace Parameters

/-- Parameters that cannot be read have an offence. -/
theorem paramsFrom_error_ne_nil {rules : TypeRules} {is : List Input} {n : Nat}
    {ds : List Diagnostic} (h : paramsFrom rules n is = .error ds) : ds ≠ [] := by
  induction is generalizing n with
  | nil => cases h
  | cons i rest ih =>
    cases i with
    | receiver r => exact ih h
    | typed attributes pattern colon type =>
      simp only [paramsFrom] at h
      cases hparam : paramOf rules n pattern type with
      | error e =>
        simp only [hparam, Except.error.injEq] at h
        subst h
        cases hresolve : rules.resolveParam type with
        | ok t => simp [paramOf, hresolve, Except.map] at hparam
        | error e' =>
          simp only [paramOf, hresolve, Except.map, Except.error.injEq] at hparam
          subst hparam
          exact TypeRules.resolveParam_error_ne_nil hresolve
      | ok p =>
        simp only [hparam] at h
        cases hrest : paramsFrom rules (n + 1) rest with
        | error e =>
          rw [hrest] at h
          obtain rfl := Except.error.inj h
          exact ih hrest
        | ok ps => simp [hrest, Except.map] at h

/-- A signature that cannot be read has an offence. -/
theorem extract_error_ne_nil {rules : TypeRules} {s : Signature} {ds : List Diagnostic}
    (h : extract rules s = .error ds) : ds ≠ [] := by
  unfold extract at h
  split at h
  · rename_i hqualifiers
    obtain rfl := Except.error.inj h
    unfold checkQualifiers at hqualifiers
    split at hqualifiers <;> cases hqualifiers <;> simp
  · split at h
    · rename_i hparams
      obtain rfl := Except.error.inj h
      exact paramsFrom_error_ne_nil hparams
    · cases hresult : resultOf rules s with
      | ok output => simp [hresult, Except.map] at h
      | error e =>
        rw [hresult] at h
        obtain rfl := Except.error.inj h
        unfold resultOf at hresult
        split at hresult
        · exact TypeRules.resolve_error_ne_nil hresult
        · cases hresult

end Parameters

namespace Memoized

/-- A function that is refused is refused for a reason. -/
theorem accept_error_ne_nil {args : CacheArgs} {s : Signature} {owner? : Option Owner}
    {ds : List Diagnostic} (h : accept args s owner? = .error ds) : ds ≠ [] := by
  unfold accept at h
  split at h
  · cases h
    simp
  · split at h
    · rename_i hextract
      obtain rfl := Except.error.inj h
      exact Parameters.extract_error_ne_nil hextract
    · rename_i p _
      cases hreceiver : checkReceiver args s p with
      | ok u => simp [hreceiver, Except.map] at h
      | error e =>
        rw [hreceiver] at h
        obtain rfl := Except.error.inj h
        unfold checkReceiver at hreceiver
        split at hreceiver
        · split at hreceiver <;> cases hreceiver
          simp
        · split at hreceiver <;> cases hreceiver
          simp

end Memoized

/-! ### Rewritten functions are told from kept definitions -/

/-- The last tree of the last tree. -/
def innermost? (ts : List TokenTree) : Option TokenTree :=
  match ts.getLast? with
  | some (.group _ _ body) => body.getLast?
  | _ => none

/-- Behind anything the content of braces decides. -/
theorem innermost?_append_braces (ts body : List TokenTree) :
    innermost? (ts ++ braces body) = body.getLast? := by
  simp [innermost?, braces, enclose]

/-- A rewritten function ends with the name of its result in braces. -/
theorem innermost?_inline (f : Function) (m : Memoized) :
    innermost? (MemoizedFunction.of f m).inline = some (ofName "result") := by
  unfold MemoizedFunction.inline MemoizedFunction.tokensWith
  rw [innermost?_append_braces]
  unfold Body.tokens
  rw [← List.append_assoc, List.getLast?_concat]

/-- Errors end with a text in braces. -/
theorem innermost?_withErrors (item : List TokenTree) {ds : List Diagnostic} (h : ds ≠ []) :
    ∃ message, innermost? (withErrors item ds) = some (text message) := by
  obtain ⟨before, last, rfl⟩ := ds.eq_nil_or_concat.resolve_left h
  refine ⟨last.message, ?_⟩
  rw [List.concat_eq_append]
  have hlast : withErrors item (before ++ [last]) =
      item ++ errorCode before ++ globalPath ["core", "compile_error"] ++ ofSign "!" ++
        braces [text last.message] := by
    simp [withErrors, errorCode, Diagnostic.errorCode]
  rw [hlast, innermost?_append_braces]
  rfl

/-- A warning ends with a semicolon. -/
theorem innermost?_withWarning (item : List TokenTree) (message : String) :
    innermost? (withWarning item message) = none := by
  have hlast : (withWarning item message).getLast? = some (.leaf ⟨.mark ';' false, none⟩) := by
    unfold withWarning warningCode
    rw [← List.append_assoc]
    exact List.getLast?_concat
  rw [innermost?, hlast]

/-- A rewritten function is followed by no errors. -/
theorem inline_ne_withErrors (f : Function) (m : Memoized) (item : List TokenTree)
    {ds : List Diagnostic} (h : ds ≠ []) :
    (MemoizedFunction.of f m).inline ≠ withErrors item ds := by
  intro heq
  obtain ⟨message, hlast⟩ := innermost?_withErrors item h
  rw [← heq, innermost?_inline] at hlast
  simp [ofName, text, ofLiteral] at hlast

/-- A rewritten function is followed by no warning. -/
theorem inline_ne_withWarning (f : Function) (m : Memoized) (item : List TokenTree)
    (message : String) : (MemoizedFunction.of f m).inline ≠ withWarning item message := by
  intro heq
  have hlast := innermost?_inline f m
  rw [heq, innermost?_withWarning] at hlast
  cases hlast

/-! ### Main statement -/

/-- The tokens are those of the function with memoized parts for its parameters: the statements of
its body are kept, and the new body is a block. The holder is complete, that is, an item of its own
for the types of the parameters and of the result that the body reaches by its name, or a field of
the instance. -/
def Rewritten (args : CacheArgs) (f : Function) (p : Parameters) (out : List TokenTree) : Prop :=
  ∃ m, out = (MemoizedFunction.of f m).inline ∧ m.signature = p.rebind f.signature ∧
    m.body.statements = f.body ∧ (parseBlock? m.block).isSome ∧
    (args.instance_.isSome → m.holder? = none) ∧
    (args.instance_ = none → ∃ holder, m.holder? = some holder ∧
      Memoized.reaches m.body holder.name ∧ parses (·.item) holder.tokens ∧
      holder.key = keyType p.params ∧ holder.value = p.output)

/-- Memoized parts make a rewritten function. -/
theorem rewritten_of_parts {arguments : List TokenTree} {args : CacheArgs} {f : Function}
    {p : Parameters} {m : Memoized} {names names' : Names} {owner? : Option Owner}
    (hparse : CacheArgs.parse arguments = .ok args)
    (haccept : Memoized.accept args f.signature owner? = .ok p)
    (hparts : Memoized.parts args f.signature f.body names owner? = .ok (m, names')) :
    Rewritten args f p (MemoizedFunction.of f m).inline := by
  obtain ⟨q, site, hq, hplace, hwell, rfl⟩ := Memoized.parts_eq_ok_iff.mp hparts
  obtain rfl := Except.ok.inj (haccept.symm.trans hq)
  unfold Memoized.isWellFormed at hwell
  simp only [Bool.and_eq_true] at hwell
  obtain ⟨⟨⟨-, hholder⟩, -⟩, hblock⟩ := hwell
  refine ⟨_, rfl, rfl, rfl, hblock, fun hinstance => ?_, fun hinstance => ?_⟩
  · obtain ⟨field, hfield⟩ := Option.isSome_iff_exists.mp
      (Scope.field?_isSome_of_parse hparse hinstance)
    simp only [Memoized.place, hfield, Option.some.injEq, Prod.mk.injEq] at hplace
    obtain ⟨rfl, -⟩ := hplace
    rfl
  · simp only [Memoized.place, CacheArgs.field?, hinstance, Option.bind_none,
      Option.map_eq_some_iff, Prod.mk.injEq] at hplace
    obtain ⟨r, -, rfl, -⟩ := hplace
    exact ⟨_, rfl, ⟨_, _, rfl⟩, by simpa [Site.holder?] using hholder, rfl, rfl⟩

section Ends

variable {arguments item out : List TokenTree} {args : CacheArgs} {f : Function}

/-- Faulty arguments keep the definition, with their faults. -/
theorem cached_of_fault {fs : List ArgumentFault} (hparse : CacheArgs.parse arguments = .error fs) :
    cached arguments item = some (withErrors item (fs.map ArgumentFault.diagnostic)) := by
  simp only [cached, hparse]

/-- A refused function is kept, with the reasons. -/
theorem cached_of_refusal {ds : List Diagnostic} (hparse : CacheArgs.parse arguments = .ok args)
    (hfunction : parseFunction? item = some f)
    (haccept : Memoized.accept args f.signature none = .error ds) :
    cached arguments item = some (withErrors item ds) := by
  have hparts : Memoized.parts args f.signature f.body .empty none = .error (.refused ds) :=
    Memoized.parts_eq_refused_iff.mpr haccept
  simp only [cached, hparse, Expansion.of, hfunction, hparts]

/-- What is no function is kept, with an error if it is a declaration without a body and without a
visibility, and with a warning otherwise. -/
theorem cached_of_other (hparse : CacheArgs.parse arguments = .ok args)
    (hfunction : parseFunction? item = none) :
    cached arguments item = some (
      if parseBodiless? item = some none then withErrors item [Refusal.notAFunction.at_ item]
      else withWarning item Refusal.notAFunction.message) := by
  simp only [cached, hparse, Expansion.of, hfunction]
  by_cases hbodiless : parseBodiless? item = some none
  · rw [if_pos hbodiless, parseDeclaration?_eq_some_false_iff.mpr hbodiless]
    rfl
  · have hfree : (parseDeclaration? item != some false) = true :=
      bne_iff_ne.mpr (mt parseDeclaration?_eq_some_false_iff.mp hbodiless)
    rw [if_neg hbodiless, hfree]
    rfl

/-- An accepted function is rewritten, if there is any code. -/
theorem cached_of_accepted {p : Parameters} (hparse : CacheArgs.parse arguments = .ok args)
    (hfunction : parseFunction? item = some f)
    (haccept : Memoized.accept args f.signature none = .ok p)
    (h : cached arguments item = some out) : Rewritten args f p out := by
  simp only [cached, hparse, Expansion.of, hfunction] at h
  cases hparts : Memoized.parts args f.signature f.body .empty none with
  | ok r =>
    obtain ⟨m, names⟩ := r
    rw [hparts] at h
    obtain rfl := Option.some.inj h
    exact rewritten_of_parts hparse haccept hparts
  | error e =>
    cases e with
    | refused ds =>
      have hrefused := Memoized.parts_eq_refused_iff.mp hparts
      rw [haccept] at hrefused
      cases hrefused
    | malformed =>
      rw [hparts] at h
      cases h

end Ends

/-- **All or nothing.** Where the attribute for functions gives code, this is a rewritten function
with its complete holder exactly if the arguments can be read, the item reads as a function with a
body and the function is accepted. Otherwise it is the item as it stands, followed by at least one
error for faulty arguments or a refused function, by one error for a declaration without a body and
without a visibility, and by one warning for everything else that is no function. The attribute for
scopes keeps an item in the same way if its arguments are faulty or the item is neither an inline
module nor an implementation block. -/
theorem all_or_nothing (arguments item out : List TokenTree)
    (h : cached arguments item = some out) :
    ((∃ f m, out = (MemoizedFunction.of f m).inline) ↔
      ∃ args f p, CacheArgs.parse arguments = .ok args ∧ parseFunction? item = some f ∧
        Memoized.accept args f.signature none = .ok p) ∧
    (∀ args f p, CacheArgs.parse arguments = .ok args → parseFunction? item = some f →
      Memoized.accept args f.signature none = .ok p → Rewritten args f p out) ∧
    (∀ fs, CacheArgs.parse arguments = .error fs →
      fs ≠ [] ∧ out = withErrors item (fs.map ArgumentFault.diagnostic)) ∧
    (∀ args f ds, CacheArgs.parse arguments = .ok args → parseFunction? item = some f →
      Memoized.accept args f.signature none = .error ds → ds ≠ [] ∧ out = withErrors item ds) ∧
    (∀ args, CacheArgs.parse arguments = .ok args → parseFunction? item = none →
      out = if parseBodiless? item = some none then
        withErrors item [Refusal.notAFunction.at_ item]
      else withWarning item Refusal.notAFunction.message) ∧
    ∀ ts, (∀ fs, ScopeArgs.parse arguments = .error fs → fs ≠ [] ∧
        Scope.expand arguments ts = some (withErrors ts (fs.map ArgumentFault.diagnostic))) ∧
      ∀ scope, ScopeArgs.parse arguments = .ok scope →
        (∀ head is, parseItem? ts ≠ some (.module head is)) →
        (∀ b, parseItem? ts ≠ some (.block b)) →
        Scope.expand arguments ts = some (withWarning ts Refusal.notAScope.message) := by
  have hfault : ∀ fs, CacheArgs.parse arguments = .error fs →
      fs ≠ [] ∧ out = withErrors item (fs.map ArgumentFault.diagnostic) := by
    intro fs hparse
    rw [cached_of_fault hparse] at h
    exact ⟨CacheArgs.parse_error_ne_nil hparse, (Option.some.inj h).symm⟩
  have hrefused : ∀ args f ds, CacheArgs.parse arguments = .ok args →
      parseFunction? item = some f → Memoized.accept args f.signature none = .error ds →
      ds ≠ [] ∧ out = withErrors item ds := by
    intro args f ds hparse hfunction haccept
    rw [cached_of_refusal hparse hfunction haccept] at h
    exact ⟨Memoized.accept_error_ne_nil haccept, (Option.some.inj h).symm⟩
  have hother : ∀ args, CacheArgs.parse arguments = .ok args → parseFunction? item = none →
      out = if parseBodiless? item = some none then
        withErrors item [Refusal.notAFunction.at_ item]
      else withWarning item Refusal.notAFunction.message := by
    intro args hparse hfunction
    rw [cached_of_other hparse hfunction] at h
    exact (Option.some.inj h).symm
  have hrewritten : ∀ args f p, CacheArgs.parse arguments = .ok args →
      parseFunction? item = some f → Memoized.accept args f.signature none = .ok p →
      Rewritten args f p out :=
    fun args f p hparse hfunction haccept => cached_of_accepted hparse hfunction haccept h
  refine ⟨⟨?_, ?_⟩, hrewritten, hfault, hrefused, hother, fun ts => ⟨?_, ?_⟩⟩
  · rintro ⟨g, m, rfl⟩
    cases hparse : CacheArgs.parse arguments with
    | error fs =>
      obtain ⟨hne, heq⟩ := hfault fs hparse
      exact absurd heq (inline_ne_withErrors g m item (by simpa using hne))
    | ok args =>
      cases hfunction : parseFunction? item with
      | none =>
        have heq := hother args hparse hfunction
        split at heq
        · exact absurd heq (inline_ne_withErrors g m item (List.cons_ne_nil _ _))
        · exact absurd heq (inline_ne_withWarning g m item _)
      | some f =>
        cases haccept : Memoized.accept args f.signature none with
        | error ds =>
          obtain ⟨hne, heq⟩ := hrefused args f ds hparse hfunction haccept
          exact absurd heq (inline_ne_withErrors g m item hne)
        | ok p => exact ⟨args, f, p, rfl, rfl, haccept⟩
  · rintro ⟨args, f, p, hparse, hfunction, haccept⟩
    obtain ⟨m, hout, -⟩ := hrewritten args f p hparse hfunction haccept
    exact ⟨f, m, hout⟩
  · intro fs hparse
    exact ⟨ScopeArgs.parse_error_ne_nil hparse, by simp only [Scope.expand, hparse]⟩
  · intro scope hparse hmodule hblock
    simp only [Scope.expand, hparse, Scope.expandWith]

/-- The tokens of a text, and what they read as: a function, a declaration without a body with or
without a visibility. -/
def readings? (source : String) :
    Option (List TokenTree × Option Function × Option (Option Token)) :=
  (TokenTree.lex 0 source).map fun ts => (ts, parseFunction? ts, parseBodiless? ts)

/-- What is read off a text. -/
theorem readings?_eq_some {source : String} {ts : List TokenTree} {f? : Option Function}
    {bodiless? : Option (Option Token)} (h : readings? source = some (ts, f?, bodiless?)) :
    TokenTree.lex 0 source = some ts ∧ parseFunction? ts = f? ∧ parseBodiless? ts = bodiless? := by
  obtain ⟨us, hlex, heq⟩ := Option.map_eq_some_iff.mp h
  obtain ⟨rfl, rfl, rfl⟩ := Prod.mk.injEq .. ▸ heq
  exact ⟨hlex, rfl, rfl⟩

/-- A function with a body. -/
def squareFunction : String := "fn square(x: u8) -> u8 { x * x }"

/-- Such a function is rewritten, without a diagnostic. -/
theorem all_or_nothing_square :
    ∃ item out f m, TokenTree.lex 0 squareFunction = some item ∧ cached [] item = some out ∧
      out = (MemoizedFunction.of f m).inline ∧ m.holder?.isSome = true := by
  have hrun : (readings? squareFunction).map (fun q =>
      (q.2.1.map fun f => (Memoized.accept .none f.signature none).isOk, (cached [] q.1).isSome)) =
      some (some true, true) := by
    decide +kernel
  obtain ⟨⟨item, f?, bodiless?⟩, hread, hrun⟩ := Option.map_eq_some_iff.mp hrun
  obtain ⟨hlex, hfunction, -⟩ := readings?_eq_some hread
  obtain ⟨haccept, hcached⟩ := Prod.mk.inj hrun
  obtain ⟨f, rfl, hok⟩ := Option.map_eq_some_iff.mp haccept
  obtain ⟨out, hcached⟩ := Option.isSome_iff_exists.mp hcached
  cases hp : Memoized.accept .none f.signature none with
  | error ds =>
    rw [hp] at hok
    cases hok
  | ok p =>
    obtain ⟨m, hout, -, -, -, -, hholder⟩ :=
      (all_or_nothing [] item out hcached).2.1 .none f p rfl hfunction hp
    obtain ⟨holder, hholder, -⟩ := hholder rfl
    exact ⟨item, out, f, m, hlex, hcached, hout, by rw [hholder]; rfl⟩

/-- A declaration without a body, as it stands in a block of foreign functions. -/
def publicDeclaration : String := "pub fn square(x: u8) -> u8;"

/-- A declaration with a visibility is followed by a warning and by no error. -/
theorem public_declaration_warned :
    ∃ item pub, TokenTree.lex 0 publicDeclaration = some item ∧ parseFunction? item = none ∧
      parseBodiless? item = some (some pub) ∧
      cached [] item = some (withWarning item Refusal.notAFunction.message) ∧
      ∀ ds, ds ≠ [] → cached [] item ≠ some (withErrors item ds) := by
  have hrun : (readings? publicDeclaration).map (fun q =>
      (q.2.1.isSome, q.2.2.map Option.isSome)) = some (false, some true) := by
    decide +kernel
  obtain ⟨⟨item, f?, bodiless?⟩, hread, hrun⟩ := Option.map_eq_some_iff.mp hrun
  obtain ⟨hlex, hfunction, hbodiless⟩ := readings?_eq_some hread
  obtain ⟨hnone, hsome⟩ := Prod.mk.inj hrun
  obtain ⟨pub?, rfl, hpub⟩ := Option.map_eq_some_iff.mp hsome
  obtain ⟨pub, rfl⟩ := Option.isSome_iff_exists.mp hpub
  obtain rfl : f? = none := Option.not_isSome_iff_eq_none.mp (by simpa using hnone)
  have hcached : cached [] item = some (withWarning item Refusal.notAFunction.message) := by
    have hparse : CacheArgs.parse [] = .ok .none := rfl
    rw [cached_of_other hparse hfunction, hbodiless, if_neg (by simp)]
  refine ⟨item, pub, hlex, hfunction, hbodiless, hcached, fun ds hne heq => ?_⟩
  obtain ⟨message, hlast⟩ := innermost?_withErrors item hne
  rw [← Option.some.inj (hcached.symm.trans heq), innermost?_withWarning] at hlast
  cases hlast

end Memoize
