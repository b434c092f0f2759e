import Memoize.Proofs.Function.Annotation
import Memoize.Proofs.Scope.ModuleNames
import Memoize.Proofs.Scope.Outcomes

/-!
# What stays in a module

A module is treated item by item. What is no function, nested modules included, stays as it is, and
of an annotated function only its attribute, its patterns and its body change. Main statement: the
items of a treated module are those of the module in order, each with the holders of its own
functions before it, and each holder is reached by one function of the module only
(`module_frame`).

## Implementation notes

`Becomes` says what a function turns into without running anything: the outcome is read off the
annotation and the reasons to refuse, and a memoized function is related to its source part by part
(`Memoized.Replaces`).
-/

namespace Memoize

/-! ### One function -/

/-- Memoized parts that stand for those of a function: besides the body only patterns of parameters
change, the body keeps the statements, and it reaches the holder that is declared, which there is
exactly if there is no receiver. -/
structure Memoized.Replaces (m : Memoized) (f : Function) : Prop where
  signature : m.signature = { f.signature with inputs := m.signature.inputs }
  inputs : List.Forall₂ Memoized.Rebound f.signature.inputs m.signature.inputs
  statements : m.body.statements = f.body
  holder_isSome : m.holder?.isSome = f.signature.receiver?.isNone
  reaches_holder : ∀ h, m.holder? = some h → Memoized.reaches m.body h.name
  reaches_none : m.holder? = none → ∀ x, ¬ Memoized.reaches m.body x

/-- The parts of a memoized function stand for its own. -/
theorem Memoized.replaces {args : CacheArgs} {f : Function} {names names' : Names}
    {owner? : Option Owner} {m : Memoized}
    (h : parts args f.signature f.body names owner? = .ok (m, names')) : m.Replaces f := by
  obtain ⟨hsignature, hinputs⟩ := signature_rebound h
  obtain ⟨hreaches, hnone⟩ := tied h
  have hisSome := holder?_isSome h
  obtain ⟨p, site, -, -, -, rfl⟩ := parts_eq_ok_iff.mp h
  exact ⟨hsignature, hinputs, rfl, hisSome, hreaches, hnone⟩

namespace Function

/-- A function with another signature and another content of its braces. -/
def printed (f : Function) (s : Signature) (span : Option Span) (content : List TokenTree) :
    List TokenTree :=
  (Attribute.all f.outer).tokens ++ f.visibility.tokens ++ f.default?.toList.map .leaf ++
    s.tokens ++ [.group .brace span ((Attribute.all f.inner).tokens ++ content)]

/-- A function is printed with its own signature and statements. -/
theorem tokens_eq (f : Function) :
    f.tokens = f.printed f.signature f.span (Phrase.allTokens (f.body.map (·.phrase))) := by
  have hdefault : (Phrase.ofToken? f.default?).tokens = f.default?.toList.map .leaf := by
    cases f.default? with
    | none => simp [Phrase.ofToken?, Phrase.empty, Phrase.tokens]
    | some t => simp [Phrase.ofToken?, Phrase.tokens]
  simp only [tokens, phrase, printed, Phrase.tokens, Phrase.allTokens_cons, Phrase.allTokens_nil,
    hdefault, Signature.tokens, List.append_assoc, List.append_nil]

end Function

/-- A memoized function is printed as the function with the memoized signature and body. -/
theorem MemoizedFunction.tokens_of (f : Function) (m : Memoized) :
    (MemoizedFunction.of f m).tokens = f.printed m.signature none m.body.tokens := by
  simp only [MemoizedFunction.tokens, MemoizedFunction.tokensWith, MemoizedFunction.of,
    Function.printed, List.append_nil]
  rfl

namespace Scope

variable {scope : ScopeArgs} {owner? : Option Owner} {names names' : Names}

/-- What a function becomes, in a block of the owner if there is one: it stays, if no attribute asks
for caching, it only loses the attribute, if it is refused, or its memoized parts take the place of
its own. -/
inductive Becomes (owner? : Option Owner) (f : Function) : Outcome → Prop
  | untouched (uncached : ∀ a ∈ f.attributes, a.isCached = false) : Becomes owner? f (.untouched f)
  | refused {a : Attribute} {g : Function} {ds : List Diagnostic} (sheds : f.Sheds a g)
      (refusal : refusal? a g owner? = some ds) : Becomes owner? f (.refused g ds)
  | memoized {a : Attribute} {g : Function} {m : Memoized} (sheds : f.Sheds a g)
      (accepted : refusal? a g owner? = none) (replaces : m.Replaces g) :
      Becomes owner? f (.memoized (.of g m))

/-- Treating a function gives what it becomes. -/
theorem becomes_of_function {f : Function} {o : Outcome}
    (h : function scope owner? names f = some (o, names')) : Becomes owner? f o := by
  rcases function_cases h with
    ⟨hnone, rfl, -⟩ | ⟨a, g, m, htake, hok, rfl⟩ | ⟨a, g, ds, htake, hrefusal, rfl, -⟩
  · exact .untouched (Function.takeCached_eq_none_iff.mp hnone)
  · obtain ⟨args, hparts⟩ := memoize_eq_ok hok
    apply Becomes.memoized (Function.takeCached_eq_some_iff.mp htake)
    · rw [Option.eq_none_iff_forall_ne_some]
      intro ds hds
      rw [memoize_eq_refused_iff.mpr hds] at hok
      cases hok
    · exact Memoized.replaces hparts
  · exact .refused (Function.takeCached_eq_some_iff.mp htake) hrefusal

namespace Becomes

/-- A function is printed as it was, or without one attribute, or without the attribute and with the
memoized signature and body in the place of its own. -/
theorem printed {f : Function} {o : Outcome} (h : Becomes owner? f o) :
    o.tokens = f.tokens ∨
      ∃ a g, f.Sheds a g ∧
        (o.tokens = g.tokens ∨
          ∃ m : Memoized, m.Replaces g ∧ o.tokens = g.printed m.signature none m.body.tokens) := by
  cases h with
  | untouched _ => exact Or.inl rfl
  | @refused a g ds hsheds _ => exact Or.inr ⟨a, g, hsheds, Or.inl rfl⟩
  | @memoized a g m hsheds _ hreplaces =>
      exact Or.inr ⟨a, g, hsheds, Or.inr ⟨m, hreplaces, MemoizedFunction.tokens_of g m⟩⟩

/-- A function that asks for no caching is left as it is. -/
theorem eq_untouched {f : Function} {o : Outcome} (h : Becomes owner? f o)
    (huncached : ∀ a ∈ f.attributes, a.isCached = false) : o = .untouched f := by
  have hnone := Function.takeCached_eq_none_iff.mpr huncached
  cases h with
  | untouched _ => rfl
  | refused hsheds _ =>
      rw [Function.takeCached_eq_some_iff.mpr hsheds] at hnone
      cases hnone
  | memoized hsheds _ _ =>
      rw [Function.takeCached_eq_some_iff.mpr hsheds] at hnone
      cases hnone

/-- The holder of a function is the one that its body reaches. -/
theorem reaches_iff {f : Function} {g : MemoizedFunction} (h : Becomes owner? f (.memoized g))
    {x : Token} :
    Memoized.reaches g.parts.body x ↔
      ∃ holder, g.parts.holder? = some holder ∧ holder.name = x := by
  cases h with
  | @memoized a g m _ _ hreplaces =>
      change Memoized.reaches m.body x ↔ ∃ holder, m.holder? = some holder ∧ holder.name = x
      constructor
      · intro hx
        cases hholder : m.holder? with
        | none => exact absurd hx (hreplaces.reaches_none hholder x)
        | some holder =>
            exact ⟨holder, rfl, Memoized.reaches_inj (hreplaces.reaches_holder holder hholder) hx⟩
      · rintro ⟨holder, hholder, rfl⟩
        exact hreplaces.reaches_holder holder hholder

end Becomes

/-! ### Items -/

/-- What a member of a block becomes: a method what functions become, and anything else itself. -/
inductive MemberBecomes (owner : Owner) : Member → NewMember → Prop
  | function {f : Function} {o : Outcome} (h : Becomes (some owner) f o) :
      MemberBecomes owner (.function f) (.function o)
  | other (name? : Option String) (p : Phrase) :
      MemberBecomes owner (.other name? p) (.kept (.other name? p))

/-- What an item becomes: a function what functions become, a block the same block with what its
members become, and anything else itself. -/
inductive ItemBecomes : Item → NewItem → Prop
  | function {f : Function} {o : Outcome} (h : Becomes none f o) :
      ItemBecomes (.function f) (.function o)
  | block {b : ImplBlock} {ms : List NewMember}
      (h : List.Forall₂ (MemberBecomes (.of b)) b.members ms) :
      ItemBecomes (.block b) (.block ⟨b, ms⟩)
  | module (head : ModuleHead) (is : List Item) :
      ItemBecomes (.module head is) (.kept (.module head is))
  | other (declared further : List String) (p : Phrase) :
      ItemBecomes (.other declared further p) (.kept (.other declared further p))

/-- Treating members gives what each of them becomes, in order. -/
theorem members_become {owner : Owner} {ms : List Member} {r : List NewMember}
    (h : members scope owner names ms = some (r, names')) :
    List.Forall₂ (MemberBecomes owner) ms r := by
  induction ms generalizing names r with
  | nil =>
      obtain ⟨rfl, -⟩ := Prod.mk.inj (Option.some.inj h)
      exact .nil
  | cons m rest ih =>
      cases m with
      | other n p =>
          obtain ⟨⟨r', new⟩, hr, heq⟩ := Option.map_eq_some_iff.mp h
          obtain ⟨rfl, rfl⟩ := Prod.mk.inj heq
          exact .cons (.other n p) (ih hr)
      | function f =>
          obtain ⟨o, names₁, r₂, ho, h₂, rfl⟩ := members_cons h
          exact .cons (.function (becomes_of_function ho)) (ih h₂)

/-- Treating an item gives what it becomes. -/
theorem item_becomes {i : Item} {j : NewItem} (h : item scope names i = some (j, names')) :
    ItemBecomes i j := by
  cases i with
  | function f =>
      obtain ⟨⟨o, new⟩, ho, heq⟩ := Option.map_eq_some_iff.mp h
      obtain ⟨rfl, rfl⟩ := Prod.mk.inj heq
      exact .function (becomes_of_function ho)
  | block b =>
      obtain ⟨⟨b', new⟩, hb, heq⟩ := Option.map_eq_some_iff.mp h
      obtain ⟨rfl, rfl⟩ := Prod.mk.inj heq
      obtain ⟨⟨ms, new⟩, hms, heq⟩ := Option.map_eq_some_iff.mp hb
      obtain ⟨rfl, rfl⟩ := Prod.mk.inj heq
      exact .block (members_become hms)
  | module head is =>
      obtain ⟨rfl, rfl⟩ := Prod.mk.inj (Option.some.inj h)
      exact .module head is
  | other declared further p =>
      obtain ⟨rfl, rfl⟩ := Prod.mk.inj (Option.some.inj h)
      exact .other declared further p

/-- Treating items gives what each of them becomes, in order. -/
theorem items_become {is : List Item} {r : List NewItem}
    (h : items scope names is = some (r, names')) : List.Forall₂ ItemBecomes is r := by
  induction is generalizing names r with
  | nil =>
      obtain ⟨rfl, -⟩ := Prod.mk.inj (Option.some.inj h)
      exact .nil
  | cons i rest ih =>
      obtain ⟨j, names₁, r₂, hj, h₂, rfl⟩ := items_cons h
      exact .cons (item_becomes hj) (ih h₂)

/-! ### Printed items -/

/-- The tokens of a block around those of its members. -/
def aroundMembers (b : ImplBlock) (members : List TokenTree) : List TokenTree :=
  b.header.tokens ++ [.group .brace b.span ((Attribute.all b.inner).tokens ++ members)]

/-- The tokens of a module around those of its items. -/
def aroundItems (head : ModuleHead) (items : List TokenTree) : List TokenTree :=
  (Phrase.seq [Attribute.all head.outer, head.visibility, .ofToken? head.unsafety, .word head.mod,
    .word head.name]).tokens ++
    [.group .brace head.span ((Attribute.all head.inner).tokens ++ items)]

/-- A block is printed around its members. -/
theorem block_tokens (b : ImplBlock) :
    b.tokens = aroundMembers b (b.members.flatMap fun m => m.phrase.tokens) := by
  have hmembers : Phrase.allTokens (b.members.map Member.phrase) =
      b.members.flatMap fun m => m.phrase.tokens := by
    induction b.members with
    | nil => simp
    | cons m rest ih => simp [ih]
  simp only [ImplBlock.tokens, ImplBlock.phrase, aroundMembers, Phrase.tokens,
    Phrase.allTokens_cons, Phrase.allTokens_nil, List.append_nil, hmembers]

/-- A module is printed around its items. -/
theorem module_tokens (head : ModuleHead) (is : List Item) :
    (Item.module head is).tokens = aroundItems head (is.flatMap Item.tokens) := by
  have hitems : Phrase.allTokens (Item.phrases is) = is.flatMap Item.tokens := by
    induction is with
    | nil => simp [Item.phrases]
    | cons i rest ih => simp [Item.phrases, Item.tokens, ih]
  simp only [Item.tokens, Item.phrase, aroundItems, Phrase.tokens, Phrase.allTokens_cons,
    Phrase.allTokens_nil, List.append_nil, List.append_assoc, hitems]

/-- Members without an annotated function stay as they are and have no holder. -/
theorem members_unchanged {owner : Owner} {ms : List Member} {r : List NewMember}
    (h : List.Forall₂ (MemberBecomes owner) ms r)
    (huncached : ∀ p ∈ memberFunctions owner ms, ∀ a ∈ p.2.attributes, a.isCached = false) :
    r.filterMap NewMember.holder? = [] ∧
      r.flatMap NewMember.tokens = ms.flatMap fun m => m.phrase.tokens := by
  induction h with
  | nil => exact ⟨rfl, rfl⟩
  | @cons m new ms r hm _ ih =>
      cases hm with
      | other name? p =>
          obtain ⟨hholders, htokens⟩ := ih huncached
          refine ⟨hholders, ?_⟩
          rw [List.flatMap_cons, List.flatMap_cons, htokens]
          rfl
      | @function f o hf =>
          obtain ⟨hholders, htokens⟩ := ih fun p hp => huncached p (List.mem_cons_of_mem _ hp)
          obtain rfl := hf.eq_untouched (huncached (some owner, f) List.mem_cons_self)
          refine ⟨hholders, ?_⟩
          rw [List.flatMap_cons, List.flatMap_cons, htokens]
          rfl

/-- An item without an annotated function stays as it is and has no holder. The functions of a
nested module do not count. -/
theorem ItemBecomes.unchanged {i : Item} {j : NewItem} (h : ItemBecomes i j)
    (huncached : ∀ p ∈ itemFunctions i, ∀ a ∈ p.2.attributes, a.isCached = false) :
    j.holders = [] ∧ j.tokens = i.tokens := by
  cases h with
  | function hf =>
      obtain rfl := hf.eq_untouched (huncached _ List.mem_cons_self)
      exact ⟨rfl, rfl⟩
  | @block b ms hms =>
      obtain ⟨hholders, htokens⟩ := members_unchanged hms huncached
      refine ⟨hholders, ?_⟩
      calc (NewItem.block ⟨b, ms⟩).tokens
          = aroundMembers b (ms.flatMap NewMember.tokens) := rfl
        _ = aroundMembers b (b.members.flatMap fun m => m.phrase.tokens) := by rw [htokens]
        _ = (Item.block b).tokens := (block_tokens b).symm
  | module head is => exact ⟨rfl, rfl⟩
  | other declared further p => exact ⟨rfl, rfl⟩

/-- A block keeps its header and is printed around what its members become. -/
theorem ItemBecomes.around {b : ImplBlock} {j : NewItem} (h : ItemBecomes (.block b) j) :
    ∃ ms, List.Forall₂ (MemberBecomes (.of b)) b.members ms ∧
      j.tokens = aroundMembers b (ms.flatMap NewMember.tokens) := by
  cases h with
  | @block b ms hms => exact ⟨ms, hms, rfl⟩

/-- A function has one holder at most. -/
theorem ItemBecomes.length_holders {f : Function} {j : NewItem} (h : ItemBecomes (.function f) j) :
    j.holders.length ≤ 1 := by
  cases h with
  | @function f o _ =>
      change o.holder?.toList.length ≤ 1
      cases o.holder? with
      | none => exact Nat.zero_le 1
      | some holder => exact Nat.le_refl 1

/-! ### Holders and functions -/

/-- Each outcome among members is what a function becomes. -/
theorem mem_outcomes_of_members {owner : Owner} {ms : List Member} {r : List NewMember}
    (h : List.Forall₂ (MemberBecomes owner) ms r) {o : Outcome}
    (ho : o ∈ r.flatMap NewMember.outcomes) : ∃ f, Becomes (some owner) f o := by
  induction h with
  | nil => cases ho
  | cons hm _ ih =>
      rw [List.flatMap_cons, List.mem_append] at ho
      rcases ho with ho | ho
      · cases hm with
        | other name? p => cases ho
        | @function f o' hf =>
            obtain rfl := List.mem_singleton.mp ho
            exact ⟨f, hf⟩
      · exact ih ho

/-- Each outcome among items is what a function becomes. -/
theorem mem_outcomes_of_items {is : List Item} {r : List NewItem}
    (h : List.Forall₂ ItemBecomes is r) {o : Outcome} (ho : o ∈ r.flatMap NewItem.outcomes) :
    ∃ owner? f, Becomes owner? f o := by
  induction h with
  | nil => cases ho
  | cons hi _ ih =>
      rw [List.flatMap_cons, List.mem_append] at ho
      rcases ho with ho | ho
      · cases hi with
        | @function f o' hf =>
            obtain rfl := List.mem_singleton.mp ho
            exact ⟨none, f, hf⟩
        | @block b ms hms =>
            obtain ⟨f, hf⟩ := mem_outcomes_of_members hms ho
            exact ⟨_, f, hf⟩
        | module head is => cases ho
        | other declared further p => cases ho
      · exact ih ho

/-- If holders have names of their own, a holder is reached by the function it is declared for and
by no other. -/
theorem reached_once {os : List Outcome} {holder : Holder}
    (hbecomes : ∀ o ∈ os, ∃ owner? f, Becomes owner? f o)
    (hnodup : (holderNames (os.filterMap Outcome.holder?)).Nodup)
    (hholder : holder ∈ os.filterMap Outcome.holder?) :
    ∃ before g after, os = before ++ .memoized g :: after ∧ g.parts.holder? = some holder ∧
      Memoized.reaches g.parts.body holder.name ∧
      ∀ g', Outcome.memoized g' ∈ before ++ after →
        ¬ Memoized.reaches g'.parts.body holder.name := by
  obtain ⟨o, ho, hsome⟩ := List.mem_filterMap.mp hholder
  obtain ⟨before, after, rfl⟩ := List.append_of_mem ho
  cases o with
  | untouched f => cases hsome
  | refused f ds => cases hsome
  | memoized g =>
      change g.parts.holder? = some holder at hsome
      obtain ⟨owner?, f, hf⟩ := hbecomes _ ho
      refine ⟨before, g, after, rfl, hsome, hf.reaches_iff.mpr ⟨holder, hsome, rfl⟩, ?_⟩
      intro g' hg' hreaches
      have hmem : Outcome.memoized g' ∈ before ++ .memoized g :: after := by
        rcases List.mem_append.mp hg' with h | h
        · exact List.mem_append_left _ h
        · exact List.mem_append_right _ (List.mem_cons_of_mem _ h)
      obtain ⟨owner', f', hf'⟩ := hbecomes _ hmem
      obtain ⟨holder', hholder', hname⟩ := hf'.reaches_iff.mp hreaches
      -- A second function that reaches the holder would declare one of the same name.
      have hperm : (before ++ .memoized g :: after).Perm (.memoized g :: (before ++ after)) :=
        List.perm_middle
      have hnames :
          (holderNames (holder :: (before ++ after).filterMap Outcome.holder?)).Nodup := by
        rw [← List.filterMap_cons_some (f := Outcome.holder?) (a := .memoized g) hsome]
        exact ((hperm.filterMap Outcome.holder?).map _).nodup hnodup
      rw [holderNames, List.map_cons, List.nodup_cons] at hnames
      apply hnames.1
      refine List.mem_map.mpr ⟨holder', List.mem_filterMap.mpr ⟨_, hg', hholder'⟩, ?_⟩
      rw [hname]

/-- A treated module has the head of the module, and its items are those of the module in order,
each replaced by what it becomes with the holders of its functions before it. An item without an
annotated function, a nested module in any case, has no holders and is printed as before; a function
has one holder at most, and a block those of its methods in order. A function is printed as before
but for its attribute, some patterns and the content of its braces, and a block but for its methods.
Each holder is reached, where results are looked up and where they are stored, by the one function
it is declared for. -/
theorem module_frame (scope : ScopeArgs) (head : ModuleHead) (is : List Item) (r : NewModule)
    (h : module scope head is = some r) :
    r.head = head ∧
      List.Forall₂ ItemBecomes is r.items ∧
      (Item.module head is).tokens = aroundItems head (is.flatMap Item.tokens) ∧
      r.tokens =
        aroundItems head (r.items.flatMap fun j => j.holders.flatMap Holder.tokens ++ j.tokens) ∧
      (∀ i j, ItemBecomes i j →
        j.holders = j.outcomes.filterMap Outcome.holder? ∧
        (∀ f, i = .function f → j.holders.length ≤ 1) ∧
        (∀ b, i = .block b → i.tokens = aroundMembers b (b.members.flatMap (·.phrase.tokens)) ∧
          ∃ ms, List.Forall₂ (MemberBecomes (.of b)) b.members ms ∧
            j.tokens = aroundMembers b (ms.flatMap NewMember.tokens)) ∧
        ((∀ p ∈ itemFunctions i, ∀ a ∈ p.2.attributes, a.isCached = false) →
          j.holders = [] ∧ j.tokens = i.tokens)) ∧
      (∀ owner? f o, Becomes owner? f o → o.tokens = f.tokens ∨
        ∃ a g, f.Sheds a g ∧
          g.tokens = g.printed g.signature g.span (Phrase.allTokens (g.body.map (·.phrase))) ∧
          (o.tokens = g.tokens ∨
            ∃ m : Memoized, m.Replaces g ∧ o.tokens = g.printed m.signature none m.body.tokens)) ∧
      (∀ holder ∈ r.holders, ∃ before g after,
        r.outcomes = before ++ .memoized g :: after ∧ g.parts.holder? = some holder ∧
        Memoized.reaches g.parts.body holder.name ∧
        Memoized.lookup g.parts.body <:+: g.parts.body.tokens ∧
        Memoized.store g.parts.body <:+: g.parts.body.tokens ∧
        ∀ g', Outcome.memoized g' ∈ before ++ after →
          ¬ Memoized.reaches g'.parts.body holder.name) ∧
      ∀ ts, Syntax.parseItem? ts = some (.module head is) →
        expandWith scope ts = some (withErrors r.tokens r.diagnostics) := by
  have hnodup := holders_nodup h
  obtain ⟨⟨new, names'⟩, hr, heq⟩ := Option.map_eq_some_iff.mp h
  subst heq
  have hbecome := items_become hr
  refine ⟨rfl, hbecome, module_tokens head is, rfl, ?_, ?_, ?_, ?_⟩
  · intro i j hij
    refine ⟨j.holders_eq, ?_, ?_, hij.unchanged⟩
    · rintro f rfl
      exact hij.length_holders
    · rintro b rfl
      exact ⟨block_tokens b, hij.around⟩
  · intro owner? f o ho
    rcases ho.printed with hsame | ⟨a, g, hsheds, hprinted⟩
    · exact Or.inl hsame
    · exact Or.inr ⟨a, g, hsheds, g.tokens_eq, hprinted⟩
  · intro holder hholder
    rw [NewModule.holders_eq] at hnodup hholder
    obtain ⟨before, g, after, hsplit, hsome, hreaches, hother⟩ :=
      reached_once (fun o ho => mem_outcomes_of_items hbecome ho) hnodup hholder
    exact ⟨before, g, after, hsplit, hsome, hreaches, Memoized.lookup_infix _,
      Memoized.store_infix _, hother⟩
  · intro ts hts
    simp only [expandWith, hts, h, Option.map_some]

/-- A module with items of all kinds: a function with a pattern, a nested module with an annotated
function, a function that is refused, a block with a method of each kind, and a struct. -/
def assortedModule : String :=
  "mod m \x7b #[cached] fn f((x, y): (u8, u8)) -> u8 \x7b x \x7d " ++
    "mod inner \x7b #[cached] fn g() -> u8 \x7b 1 \x7d \x7d " ++
    "#[cached] fn bad(x: impl Copy) -> u8 \x7b 2 \x7d " ++
    "impl A \x7b const K: u8 = 0; #[cached] fn a() -> u8 \x7b 1 \x7d " ++
    "#[cached(instance = c)] fn b(&self) -> u8 \x7b 2 \x7d fn k() \x7b \x7d \x7d struct S; \x7d"

/-- Such a module has one holder before the first function and one before the block. -/
theorem module_frame_assorted :
    ∃ head is r, readModule? assortedModule = some (head, is) ∧
      module ⟨none⟩ head is = some r ∧
      r.items.map (fun j => holderNames j.holders) =
        [["__F_CACHE_0"], [], [], ["__A_CACHE_0"], []] ∧
      List.Forall₂ ItemBecomes is r.items ∧
      ∀ holder ∈ r.holders, ∃ before g after,
        r.outcomes = before ++ .memoized g :: after ∧ g.parts.holder? = some holder ∧
        Memoized.reaches g.parts.body holder.name ∧
        ∀ g', Outcome.memoized g' ∈ before ++ after →
          ¬ Memoized.reaches g'.parts.body holder.name := by
  have hrun : (readModule? assortedModule).bind (fun q => (module ⟨none⟩ q.1 q.2).map fun r =>
      r.items.map fun j => holderNames j.holders) =
      some [["__F_CACHE_0"], [], [], ["__A_CACHE_0"], []] := by
    decide +kernel
  obtain ⟨⟨head, is⟩, hread, hmap⟩ := Option.bind_eq_some_iff.mp hrun
  obtain ⟨r, hr, hnames⟩ := Option.map_eq_some_iff.mp hmap
  obtain ⟨-, hbecome, -, -, -, -, honce, -⟩ := module_frame ⟨none⟩ head is r hr
  refine ⟨head, is, r, hread, hr, hnames, hbecome, ?_⟩
  intro holder hholder
  obtain ⟨before, g, after, hsplit, hsome, hreaches, -, -, hother⟩ := honce holder hholder
  exact ⟨before, g, after, hsplit, hsome, hreaches, hother⟩

end Scope

end Memoize
