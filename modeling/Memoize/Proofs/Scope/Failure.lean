import Memoize.Proofs.Function.Fits
import Memoize.Proofs.Scope.Standalone

/-!
# Expansions that fail

An expansion gives code unless the code that it would add is no code: then there is no answer, and
no diagnostic either. Main statement: this happens exactly if some function that is accepted gets
code that does not fit (`expansion_fails_iff`). In a scope the other functions and the names they
take play no part, and one such function leaves the whole scope without code.

## Implementation notes

The owner that qualifies names never changes while a scope is treated, which is why `Breaks` speaks
of the owner and not of the names that are taken.
-/

namespace Memoize

open Syntax

/-! ### One function -/

/-- The code for a definition on its own fails exactly if it is a function that is accepted, and the
added code does not fit. -/
theorem cached_eq_none_iff {arguments item : List TokenTree} :
    cached arguments item = none ↔
      ∃ args f p, CacheArgs.parse arguments = .ok args ∧ parseFunction? item = some f ∧
        Memoized.accept args f.signature none = .ok p ∧
        ¬ Memoized.Fits args none f.signature p f.body := by
  unfold cached
  cases hparse : CacheArgs.parse arguments with
  | error fs => simp
  | ok args =>
    unfold Expansion.of
    cases hfunction : parseFunction? item with
    | none => simp
    | some f =>
      simp only [Except.ok.injEq, Option.some.injEq, exists_and_left, exists_eq_left']
      refine Iff.trans ?_ (@Memoized.parts_eq_malformed_iff args f.signature f.body .empty none)
      cases Memoized.parts args f.signature f.body .empty none with
      | ok r => simp
      | error e => cases e <;> simp

namespace Scope

variable {scope : ScopeArgs} {owner? : Option Owner} {names : Names}

/-- A function with its block, if it is in one, breaks its scope: it asks for caching and is
accepted, but the code that it is given does not fit. -/
def Breaks (scope : ScopeArgs) (naming? : Option String) (q : Option Owner × Function) : Prop :=
  ∃ a f arguments args p, q.2.takeCached = some (a, f) ∧ a.arguments = .ok arguments ∧
    CacheArgs.parse arguments = .ok args ∧ Memoized.accept args f.signature q.1 = .ok p ∧
    ¬ Memoized.Fits (args.within scope) naming? f.signature p f.body

/-- A function with an attribute cannot be given code exactly if it is accepted by the arguments of
the attribute, and the added code does not fit. -/
theorem memoize_eq_malformed_iff {a : Attribute} {f : Function} :
    memoize scope a f names owner? = .error .malformed ↔
      ∃ arguments args p, a.arguments = .ok arguments ∧ CacheArgs.parse arguments = .ok args ∧
        Memoized.accept args f.signature owner? = .ok p ∧
        ¬ Memoized.Fits (args.within scope) names.owner f.signature p f.body := by
  unfold memoize
  cases a.arguments with
  | error d => simp
  | ok arguments =>
    cases hparse : CacheArgs.parse arguments with
    | error fs => simp [hparse]
    | ok args =>
      simp only [Except.ok.injEq, hparse, exists_and_left, exists_eq_left']
      exact Memoized.parts_eq_malformed_iff

/-- The code for a function of a scope fails exactly if the function breaks the scope. -/
theorem function_eq_none_iff {f : Function} :
    function scope owner? names f = none ↔ Breaks scope names.owner (owner?, f) := by
  unfold function Breaks
  cases f.takeCached with
  | none => simp
  | some r =>
    obtain ⟨a, g⟩ := r
    simp only [Option.some.injEq, Prod.mk.injEq, exists_and_left, exists_eq_left', and_assoc]
    refine Iff.trans ?_ ?_ (b := memoize scope a g names owner? = .error .malformed)
    · cases memoize scope a g names owner? with
      | ok r => simp
      | error e => cases e <;> simp
    · rw [memoize_eq_malformed_iff]
      simp

/-- Members are treated to the end unless one of the methods breaks the scope. -/
theorem members_eq_none_iff {owner : Owner} {ms : List Member} :
    members scope owner names ms = none ↔
      ∃ q ∈ memberFunctions owner ms, Breaks scope names.owner q := by
  induction ms generalizing names with
  | nil => simp [members, memberFunctions]
  | cons m rest ih =>
    cases m with
    | other n p =>
      rw [members, Option.map_eq_none_iff]
      exact ih
    | function f =>
      have hcons : memberFunctions owner (.function f :: rest) =
        (some owner, f) :: memberFunctions owner rest := rfl
      rw [hcons, List.exists_mem_cons_iff, ← function_eq_none_iff, members]
      cases hf : function scope (some owner) names f with
      | none => simp
      | some r =>
        obtain ⟨o, names₁⟩ := r
        have hserves : Names.Serves (fun _ => True) names o.placed names₁ :=
          function_serves (fun _ _ => trivial) hf
        rw [← hserves.owner_eq, ← ih]
        simp

/-- An item is treated unless one of its functions breaks the scope. -/
theorem item_eq_none_iff {i : Item} :
    item scope names i = none ↔ ∃ q ∈ itemFunctions i, Breaks scope names.owner q := by
  cases i with
  | function f =>
    rw [item, Option.map_eq_none_iff, function_eq_none_iff]
    simp [itemFunctions]
  | block b =>
    rw [item, Option.map_eq_none_iff, block, Option.map_eq_none_iff, members_eq_none_iff]
    rfl
  | module head is => simp [item, itemFunctions]
  | other names further p => simp [item, itemFunctions]

/-- Items are treated to the end unless one of their functions breaks the scope. -/
theorem items_eq_none_iff {is : List Item} :
    items scope names is = none ↔
      ∃ q ∈ is.flatMap itemFunctions, Breaks scope names.owner q := by
  induction is generalizing names with
  | nil => simp [items]
  | cons i rest ih =>
    rw [List.flatMap_cons, items]
    simp only [List.mem_append, or_and_right, exists_or]
    rw [← item_eq_none_iff]
    cases hi : item scope names i with
    | none => simp
    | some r =>
      obtain ⟨j, names₁⟩ := r
      rw [← (item_serves hi).owner_eq, ← ih]
      simp

/-- The names of a block are qualified by its owner name in upper case. -/
theorem owner_blockNames (b : ImplBlock) :
    (blockNames b).owner = (OwnerName.ofBlock b).map Text.upper := by
  unfold blockNames
  cases OwnerName.ofBlock b with
  | none => exact Names.owner_reserveAll _ _
  | some owner => rfl

/-- The code of a scope fails exactly if one of its functions breaks it. -/
theorem expandWith_eq_none_iff {ts : List TokenTree} :
    expandWith scope ts = none ↔
      (∃ head is, parseItem? ts = some (.module head is) ∧
        ∃ q ∈ is.flatMap itemFunctions, Breaks scope none q) ∨
      ∃ b, parseItem? ts = some (.block b) ∧ ∃ q ∈ memberFunctions (.of b) b.members,
        Breaks scope ((OwnerName.ofBlock b).map Text.upper) q := by
  unfold expandWith
  cases parseItem? ts with
  | none => simp
  | some i =>
    cases i with
    | function f => simp
    | other names further p => simp
    | module head is =>
      have howner : (Names.ofItems is).owner = none := Names.owner_reserveAll _ _
      simp only [module, Option.map_eq_none_iff, items_eq_none_iff, howner]
      simp
    | block b =>
      simp only [block, Option.map_eq_none_iff, members_eq_none_iff, owner_blockNames]
      simp

end Scope

/-! ### Main statement -/

/-- **Expansions that fail.** The attribute for functions gives no code exactly if the arguments can
be read, the definition is a function that is accepted, and the added code does not fit it. The
attribute for scopes gives no code exactly if its arguments can be read and there is such a function
among those of the module or the methods of the block, whatever the other functions are. Of the
conditions for added code that fits, the one on the name of a holder is met if the names it is made
of are ASCII names. The one on the expression that reaches the holder is always met by a holder of
its own; by a field exactly if the name of the field may be declared or is `await`. -/
theorem expansion_fails_iff (arguments ts : List TokenTree) :
    (cached arguments ts = none ↔
      ∃ args f p, CacheArgs.parse arguments = .ok args ∧ parseFunction? ts = some f ∧
        Memoized.accept args f.signature none = .ok p ∧
        ¬ Memoized.Fits args none f.signature p f.body) ∧
    (Scope.expand arguments ts = none ↔
      ∃ scope, ScopeArgs.parse arguments = .ok scope ∧
        ((∃ head is, parseItem? ts = some (.module head is) ∧
            ∃ q ∈ is.flatMap Scope.itemFunctions, Scope.Breaks scope none q) ∨
          ∃ b, parseItem? ts = some (.block b) ∧
            ∃ q ∈ Scope.memberFunctions (.of b) b.members,
              Scope.Breaks scope ((OwnerName.ofBlock b).map Text.upper) q)) ∧
    (∀ (owner? : Option String) (f : String), (∀ s ∈ unraw f :: owner?.toList,
        ∀ c ∈ s.toList, c.toNat < 128 ∧ Text.isNamePart c) →
      Names.Nameable (owner?.map Text.upper) f) ∧
    ∀ (args : CacheArgs) (s : Signature),
      (args.field? = none → parses Grammar.anyExpr (Memoized.standIn args s).reference) ∧
      ∀ n span, args.field? = some ⟨.name n, span⟩ →
        (parses Grammar.anyExpr (Memoized.standIn args s).reference ↔
          n = "await" ∨ Parser.isIdentifier n) := by
  refine ⟨cached_eq_none_iff, ?_, fun _ _ => Names.nameable_of_ascii, fun args s => ⟨?_, ?_⟩⟩
  · unfold Scope.expand
    cases ScopeArgs.parse arguments with
    | error fs => simp
    | ok scope =>
      simp only [Scope.expandWith_eq_none_iff]
      simp
  · exact Memoized.parses_reference_of_variable
  · intro n span hfield
    rw [Memoized.standIn, hfield]
    simp only [parses_field_reference, Bool.or_eq_true, beq_iff_eq]

/-- Arguments that name a keyword as the field of a holder. -/
def keywordField : String := "instance = self"

/-- A method that is accepted for a field. -/
def constantMethod : String := "fn f(&self) -> u8 \x7b 1 \x7d"

/-- Arguments that can be read and a method that is accepted by them, for which there is neither
code nor a diagnostic. -/
theorem keyword_field_fails :
    ∃ arguments item args f p, TokenTree.lex 0 keywordField = some arguments ∧
      TokenTree.lex 1 constantMethod = some item ∧ CacheArgs.parse arguments = .ok args ∧
      parseFunction? item = some f ∧ Memoized.accept args f.signature none = .ok p ∧
      cached arguments item = none := by
  have hrun : (TokenTree.lex 0 keywordField).bind (fun arguments =>
      (TokenTree.lex 1 constantMethod).bind fun item =>
        (CacheArgs.parse arguments).toOption.bind fun args =>
          (parseFunction? item).bind fun f =>
            (Memoized.accept args f.signature none).toOption.map fun _ =>
              (cached arguments item).isNone) = some true := by
    decide +kernel
  obtain ⟨arguments, harguments, hrun⟩ := Option.bind_eq_some_iff.mp hrun
  obtain ⟨item, hitem, hrun⟩ := Option.bind_eq_some_iff.mp hrun
  obtain ⟨args, hparse, hrun⟩ := Option.bind_eq_some_iff.mp hrun
  obtain ⟨f, hfunction, hrun⟩ := Option.bind_eq_some_iff.mp hrun
  obtain ⟨p, haccept, hnone⟩ := Option.map_eq_some_iff.mp hrun
  exact ⟨arguments, item, args, f, p, harguments, hitem, Scope.ok_of_toOption hparse, hfunction,
    Scope.ok_of_toOption haccept, Option.isNone_iff_eq_none.mp hnone⟩

end Memoize
