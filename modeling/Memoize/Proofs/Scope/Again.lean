import Memoize.Proofs.Scope.Frame

/-!
# Modules that are treated again

A treated module is a module again, with a variable for each holder and a function for each
memoized one (`NewModule.tokens_eq`), so the treatment can be repeated. It takes one attribute that
asks for caching off each function that has one, whether the function is memoized or refused, and a
module without such attributes stays as it is. Main statement: a module whose functions have one
such attribute at most is settled after the first time (`rewrite_idempotent`).

## Implementation notes

The code that is added does not matter when a module is treated again: holders are variables, and of
a function only its attributes are read. So it is put into the new items as it is printed, a body as
one statement for each of its parts.
-/

namespace Memoize

open TokenTree

/-! ### Treated modules as modules -/

/-- The parts of a body as statements, which declare nothing in it. -/
def Body.asStatements (b : Body) : List Statement :=
  BodyPart.all.map fun p => .silent [.raw (b.text p)]

/-- The statements for the parts of a body are printed as the body. -/
theorem Body.asStatements_tokens (b : Body) :
    Phrase.allTokens (b.asStatements.map (·.phrase)) = b.tokens := by
  simp [asStatements, BodyPart.all, Statement.silent, Phrase.tokens, tokens_eq_parts]

/-- A memoized function as a function. -/
def MemoizedFunction.asFunction (f : MemoizedFunction) : Function :=
  ⟨f.outer, f.visibility, f.default?, f.parts.signature, f.inner, none, f.parts.body.asStatements⟩

/-- A memoized function is printed as the function that it is. -/
theorem MemoizedFunction.asFunction_tokens (f : MemoizedFunction) :
    f.asFunction.tokens = f.tokens := by
  rw [Function.tokens_eq, asFunction, Body.asStatements_tokens]
  simp only [Function.printed, tokens, tokensWith, List.append_nil]
  rfl

/-- The declaration of a holder as an item. -/
def Holder.asItem (h : Holder) : Item := .other [h.name.name] [] (.raw h.tokens)

namespace Scope

/-- What became of a function as a function. -/
def Outcome.asFunction : Outcome → Function
  | untouched f => f
  | memoized f => f.asFunction
  | refused f _ => f

/-- What became of a function is printed as the function that it is. -/
theorem Outcome.asFunction_tokens (o : Outcome) : o.asFunction.tokens = o.tokens := by
  cases o with
  | untouched f => rfl
  | memoized f => exact f.asFunction_tokens
  | refused f ds => rfl

/-- A member of a treated block as a member. -/
def NewMember.asMember : NewMember → Member
  | function o => .function o.asFunction
  | kept m => m

/-- A treated block as a block. -/
def NewBlock.asBlock (b : NewBlock) : ImplBlock :=
  { b.block with members := b.members.map NewMember.asMember }

/-- An item of a treated module, without the holders before it, as an item. -/
def NewItem.asItem : NewItem → Item
  | function o => .function o.asFunction
  | block b => .block b.asBlock
  | kept i => i

/-- The items of a treated module, every item after its holders. -/
def NewModule.asItems (m : NewModule) : List Item :=
  m.items.flatMap fun i => i.holders.map Holder.asItem ++ [i.asItem]

/-- A treated block is printed as the block that it is. -/
theorem NewBlock.asBlock_tokens (b : NewBlock) : b.asBlock.tokens = b.tokens := by
  have hmembers : (b.members.map NewMember.asMember).flatMap (fun m => m.phrase.tokens) =
      b.members.flatMap NewMember.tokens := by
    rw [List.flatMap_map]
    congr 1
    funext m
    cases m with
    | function o => exact o.asFunction_tokens
    | kept m => rfl
  rw [block_tokens, asBlock, hmembers]
  rfl

/-- An item of a treated module is printed as the item that it is. -/
theorem NewItem.asItem_tokens (i : NewItem) : i.asItem.tokens = i.tokens := by
  cases i with
  | function o => exact o.asFunction_tokens
  | block b => exact b.asBlock_tokens
  | kept i => rfl

/-- A treated module is printed as the module of its items. -/
theorem NewModule.tokens_eq (m : NewModule) :
    m.tokens = (Item.module m.head m.asItems).tokens := by
  have hholders (hs : List Holder) :
      (hs.map Holder.asItem).flatMap Item.tokens = hs.flatMap Holder.tokens := by
    simp [List.flatMap_map, Holder.asItem, Item.tokens, Item.phrase, Phrase.tokens]
  have hitems : m.asItems.flatMap Item.tokens =
      m.items.flatMap fun i => i.holders.flatMap Holder.tokens ++ i.tokens := by
    rw [asItems, List.flatMap_assoc]
    congr 1
    funext i
    rw [List.flatMap_append, hholders, List.flatMap_singleton, NewItem.asItem_tokens]
  rw [module_tokens, hitems]
  rfl

/-- Treats an inline module as a change of its items. The answer are the items afterwards and the
diagnostics. -/
def rewrite (scope : ScopeArgs) (head : ModuleHead) (is : List Item) :
    Option (List Item × List Diagnostic) :=
  (module scope head is).map fun m => (m.asItems, m.diagnostics)

variable {scope : ScopeArgs} {owner? : Option Owner} {names names' : Names}

/-! ### Attributes of treated functions -/

/-- How many attributes of a function ask for caching. -/
def annotations (f : Function) : Nat := f.attributes.countP Attribute.isCached

/-- Without annotations no attribute of a function ends in the name that asks for caching. -/
theorem annotations_eq_zero_iff {f : Function} :
    annotations f = 0 ↔ ∀ a ∈ f.attributes, a.path.last.name.word ≠ .name "cached" := by
  simp [annotations, List.countP_eq_zero, Attribute.isCached]

/-- A function that sheds an attribute has one annotation less. -/
theorem annotations_of_sheds {f g : Function} {a : Attribute} (h : f.Sheds a g) :
    annotations g = annotations f - 1 := by
  cases h with
  | outer hsplit ha _ =>
      simp only [annotations, Function.attributes, hsplit, List.countP_append, List.countP_cons, ha,
        if_true]
      omega
  | inner _ hsplit ha _ =>
      simp only [annotations, Function.attributes, hsplit, List.countP_append, List.countP_cons, ha,
        if_true]
      omega

/-- Whatever becomes of a function, it has one annotation less, if it had any. -/
theorem Becomes.annotations_eq {f : Function} {o : Outcome} (h : Becomes owner? f o) :
    annotations o.asFunction = annotations f - 1 := by
  cases h with
  | untouched huncached =>
      have hzero : annotations f = 0 := by
        simpa [annotations, List.countP_eq_zero] using huncached
      simp only [Outcome.asFunction, hzero]
  | refused hsheds _ => exact annotations_of_sheds hsheds
  | @memoized a g m hsheds _ _ =>
      -- The attributes of the memoized function are those that are left.
      change annotations g = _
      exact annotations_of_sheds hsheds

/-- A function and the one that it becomes, in the same block if in any. -/
def Succeeds (p q : Option Owner × Function) : Prop :=
  ∃ o, Becomes p.1 p.2 o ∧ q = (p.1, o.asFunction)

/-- The methods of a treated block are what its methods become. -/
theorem memberFunctions_succeed {owner : Owner} {ms : List Member} {r : List NewMember}
    (h : List.Forall₂ (MemberBecomes owner) ms r) :
    List.Forall₂ Succeeds (memberFunctions owner ms)
      (memberFunctions owner (r.map NewMember.asMember)) := by
  induction h with
  | nil => exact .nil
  | cons hm _ ih =>
      cases hm with
      | other name? p => exact ih
      | function hf => exact .cons ⟨_, hf, rfl⟩ ih

/-- The functions of a treated item are what its functions become. -/
theorem itemFunctions_succeed {i : Item} {j : NewItem} (h : ItemBecomes i j) :
    List.Forall₂ Succeeds (itemFunctions i) (itemFunctions j.asItem) := by
  cases h with
  | function hf => exact .cons ⟨_, hf, rfl⟩ .nil
  | block hms => exact memberFunctions_succeed hms
  | module head is => exact .nil
  | other declared further p => exact .nil

/-- The functions of a treated module are what its functions become, since holders are none. -/
theorem moduleFunctions_succeed (head : ModuleHead) {is : List Item} {r : List NewItem}
    (h : List.Forall₂ ItemBecomes is r) :
    List.Forall₂ Succeeds (is.flatMap itemFunctions)
      ((NewModule.asItems ⟨head, r⟩).flatMap itemFunctions) := by
  induction h with
  | nil => exact .nil
  | @cons i j is r hi _ ih =>
      have hholders : (j.holders.map Holder.asItem).flatMap itemFunctions = [] := by
        simp [List.flatMap_map, Holder.asItem, itemFunctions]
      simp only [NewModule.asItems, List.flatMap_cons, List.flatMap_append, hholders,
        List.nil_append, List.flatMap_nil, List.append_nil] at ih ⊢
      exact List.rel_append (itemFunctions_succeed hi) ih

/-! ### Modules without annotations -/

/-- Whether no attribute of functions asks for caching. -/
def Uncached (fs : List (Option Owner × Function)) : Prop :=
  ∀ q ∈ fs, annotations q.2 = 0

/-- A function without annotations is left as it is. -/
theorem function_of_uncached {f : Function} (h : annotations f = 0) :
    function scope owner? names f = some (.untouched f, names) := by
  refine function_of_takeCached_eq_none (Function.takeCached_eq_none_iff.mpr ?_)
  simpa [annotations, List.countP_eq_zero] using h

/-- A member that is left as it is. -/
def untouchedMember : Member → NewMember
  | .function f => .function (.untouched f)
  | .other n p => .kept (.other n p)

/-- An item that is left as it is. -/
def untouchedItem : Item → NewItem
  | .function f => .function (.untouched f)
  | .block b => .block ⟨b, b.members.map untouchedMember⟩
  | i => .kept i

/-- Members without annotations are left as they are. -/
theorem members_of_uncached {owner : Owner} {ms : List Member}
    (h : Uncached (memberFunctions owner ms)) :
    members scope owner names ms = some (ms.map untouchedMember, names) := by
  induction ms with
  | nil => rfl
  | cons m ms ih =>
      cases m with
      | other n p =>
          rw [members, ih h]
          rfl
      | function f =>
          obtain ⟨hf, hrest⟩ := List.forall_mem_cons.mp h
          rw [members, function_of_uncached hf]
          simp only [ih hrest]
          rfl

/-- An item without annotations is left as it is. -/
theorem item_of_uncached {i : Item} (h : Uncached (itemFunctions i)) :
    item scope names i = some (untouchedItem i, names) := by
  cases i with
  | function f =>
      rw [item, function_of_uncached (h _ List.mem_cons_self)]
      rfl
  | block b =>
      rw [item, block, members_of_uncached h]
      rfl
  | module head is => rfl
  | other declared further p => rfl

/-- Items without annotations are left as they are. -/
theorem items_of_uncached {is : List Item} (h : Uncached (is.flatMap itemFunctions)) :
    items scope names is = some (is.map untouchedItem, names) := by
  induction is with
  | nil => rfl
  | cons i is ih =>
      obtain ⟨hi, hrest⟩ := List.forall_mem_append.mp h
      rw [items, item_of_uncached hi]
      simp only [ih hrest]
      rfl

/-- A member that is left as it is stays the same member, without a diagnostic. -/
theorem untouchedMember_spec (m : Member) : (untouchedMember m).asMember = m ∧
    (untouchedMember m).holder? = none ∧ (untouchedMember m).diagnostics = [] := by
  cases m <;> exact ⟨rfl, rfl, rfl⟩

/-- An item that is left as it is stays the same item, without holders and diagnostics. -/
theorem untouchedItem_spec (i : Item) : (untouchedItem i).asItem = i ∧
    (untouchedItem i).holders = [] ∧ (untouchedItem i).diagnostics = [] := by
  cases i with
  | block b =>
      refine ⟨?_, ?_, ?_⟩
      · simp [untouchedItem, NewItem.asItem, NewBlock.asBlock, Function.comp_def,
          (untouchedMember_spec _).1]
      · simp [untouchedItem, NewItem.holders, NewBlock.holders, List.filterMap_map,
          (untouchedMember_spec _).2.1]
      · simp [untouchedItem, NewItem.diagnostics, NewBlock.diagnostics, List.flatMap_map,
          (untouchedMember_spec _).2.2]
  | _ => exact ⟨rfl, rfl, rfl⟩

/-- A module without annotations stays as it is, and nothing is reported. -/
theorem rewrite_of_uncached {head : ModuleHead} {is : List Item}
    (h : Uncached (is.flatMap itemFunctions)) : rewrite scope head is = some (is, []) := by
  rw [rewrite, module, items_of_uncached h]
  simp [NewModule.asItems, NewModule.diagnostics, List.flatMap_map, untouchedItem_spec]

/-- If functions have one annotation at most, what they become has none. -/
theorem uncached_of_succeed {fs gs : List (Option Owner × Function)}
    (h : List.Forall₂ Succeeds fs gs) (hone : ∀ q ∈ fs, annotations q.2 ≤ 1) : Uncached gs := by
  induction h with
  | nil => exact List.forall_mem_nil _
  | @cons p q fs gs hpq _ ih =>
      obtain ⟨hp, hrest⟩ := List.forall_mem_cons.mp hone
      obtain ⟨o, ho, rfl⟩ := hpq
      refine List.forall_mem_cons.mpr ⟨?_, ih hrest⟩
      have hannotations := ho.annotations_eq
      dsimp only
      omega

/-! ### Main statement -/

/-- The code of a treated module is the code of its new items. -/
theorem expandWith_of_rewrite {head : ModuleHead} {is is' : List Item} {ds : List Diagnostic}
    {ts : List TokenTree} (h : rewrite scope head is = some (is', ds))
    (hts : Syntax.parseItem? ts = some (.module head is)) :
    expandWith scope ts = some (withErrors (Item.module head is').tokens ds) := by
  obtain ⟨m, hm, heq⟩ := Option.map_eq_some_iff.mp h
  obtain ⟨rfl, rfl⟩ := Prod.mk.inj heq
  obtain ⟨⟨r, names'⟩, hr, rfl⟩ := Option.map_eq_some_iff.mp hm
  simp only [expandWith, hts, hm, Option.map_some, NewModule.tokens_eq]

/-- **Modules that are treated again.** If each function of a module, and each method of the blocks
in it, has one annotation at most, and the module can be treated, the functions of the treated
module are what those of the module become, and none of them, memoized or refused, has an attribute
that ends in the name that asks for caching. Treated again, with any arguments, the module stays as
it is, and nothing is reported. The code of both treatments is the code of these modules. -/
theorem rewrite_idempotent {scope : ScopeArgs} {head : ModuleHead} {is is' : List Item}
    {ds : List Diagnostic}
    (hone : ∀ q ∈ is.flatMap itemFunctions, q.2.attributes.countP Attribute.isCached ≤ 1)
    (h : rewrite scope head is = some (is', ds)) :
    List.Forall₂ Succeeds (is.flatMap itemFunctions) (is'.flatMap itemFunctions) ∧
      (∀ q ∈ is'.flatMap itemFunctions, ∀ a ∈ q.2.attributes,
        a.path.last.name.word ≠ .name "cached") ∧
      (∀ scope', rewrite scope' head is' = some (is', [])) ∧
      (∀ ts, Syntax.parseItem? ts = some (.module head is) →
        expandWith scope ts = some (withErrors (Item.module head is').tokens ds)) ∧
      ∀ scope' ts, Syntax.parseItem? ts = some (.module head is') →
        expandWith scope' ts = some (Item.module head is').tokens := by
  have hcode (ts : List TokenTree) (hts : Syntax.parseItem? ts = some (.module head is)) :=
    expandWith_of_rewrite h hts
  obtain ⟨m, hm, heq⟩ := Option.map_eq_some_iff.mp h
  obtain ⟨rfl, rfl⟩ := Prod.mk.inj heq
  obtain ⟨⟨r, names'⟩, hr, rfl⟩ := Option.map_eq_some_iff.mp hm
  have hsucceed := moduleFunctions_succeed head (items_become hr)
  have huncached := uncached_of_succeed hsucceed hone
  refine ⟨hsucceed, fun q hq => annotations_eq_zero_iff.mp (huncached q hq),
    fun scope' => rewrite_of_uncached huncached, hcode, fun scope' ts hts => ?_⟩
  rw [expandWith_of_rewrite (rewrite_of_uncached huncached) hts]
  simp [withErrors, errorCode]

/-- A module with a function that is memoized, a method whose annotation has the wrong form, and a
function without an annotation. -/
def settlingModule : String :=
  "mod m \x7b #[cached] fn f(x: u8) -> u8 \x7b x \x7d " ++
    "impl A \x7b #[recall::cached = 1] fn k() \x7b \x7d \x7d fn g() \x7b \x7d \x7d"

/-- Such a module has a holder and a diagnostic the first time and stays as it is the second. -/
theorem rewrite_idempotent_spellings :
    ∃ head is is' ds, readModule? settlingModule = some (head, is) ∧
      (is.flatMap itemFunctions).map (fun q => q.2.attributes.countP Attribute.isCached) =
        [1, 1, 0] ∧
      rewrite ⟨none⟩ head is = some (is', ds) ∧ is'.length = is.length + 1 ∧ ds.length = 1 ∧
      (∀ q ∈ is'.flatMap itemFunctions, ∀ a ∈ q.2.attributes,
        a.path.last.name.word ≠ .name "cached") ∧
      ∀ scope', rewrite scope' head is' = some (is', []) := by
  have hrun : (readModule? settlingModule).bind (fun q => (rewrite ⟨none⟩ q.1 q.2).map fun r =>
      ((q.2.flatMap itemFunctions).map fun q => q.2.attributes.countP Attribute.isCached,
        r.1.length == q.2.length + 1, r.2.length)) = some ([1, 1, 0], true, 1) := by
    decide +kernel
  obtain ⟨⟨head, is⟩, hread, hmap⟩ := Option.bind_eq_some_iff.mp hrun
  obtain ⟨⟨is', ds⟩, hrewrite, heq⟩ := Option.map_eq_some_iff.mp hmap
  simp only [Prod.mk.injEq, beq_iff_eq] at heq
  obtain ⟨hcounts, hlength, hds⟩ := heq
  have hone : ∀ q ∈ is.flatMap itemFunctions, q.2.attributes.countP Attribute.isCached ≤ 1 := by
    intro q hq
    have hmem : q.2.attributes.countP Attribute.isCached ∈ [1, 1, 0] := by
      rw [← hcounts]
      exact List.mem_map_of_mem hq
    have hall : ∀ n ∈ [1, 1, 0], n ≤ 1 := by decide
    exact hall _ hmem
  obtain ⟨-, hnone, hagain, -⟩ := rewrite_idempotent hone hrewrite
  exact ⟨head, is, is', ds, hread, hcounts, hrewrite, hlength, hds, hnone, hagain⟩

/-- A module with a declaration without a body, and with a block in a form that is kept as it is
written. -/
def verbatimModule : String :=
  "mod m \x7b #[cached] fn f() -> u8; " ++
    "impl const A for B \x7b #[cached] fn g() -> u8 \x7b 1 \x7d \x7d \x7d"

/-- The function that the last group of a text consists of. -/
def lastFunction? (ts : List TokenTree) : Option Function :=
  match ts.getLast? with
  | some (.group _ _ body) => Syntax.parseFunction? body
  | _ => none

/-- Such items keep their annotations, a method of the block among them. -/
theorem verbatim_annotations_stay :
    ∃ head i j, readModule? verbatimModule = some (head, [i, j]) ∧
      (∀ scope, rewrite scope head [i, j] = some ([i, j], [])) ∧
      render i.tokens = "# [ cached ] fn f ( ) - > u8 ;" ∧
      render j.tokens = "impl const A for B \x7b # [ cached ] fn g ( ) - > u8 \x7b 1 \x7d \x7d" ∧
      ∃ g, lastFunction? j.tokens = some g ∧ ∃ a ∈ g.attributes, a.isCached = true := by
  have hrun : (readModule? verbatimModule).map (fun q =>
      ((q.2.flatMap itemFunctions).length, q.2.map fun i =>
        (render i.tokens, (lastFunction? i.tokens).map fun g => g.attributes.any (·.isCached)))) =
      some (0, [("# [ cached ] fn f ( ) - > u8 ;", none),
        ("impl const A for B \x7b # [ cached ] fn g ( ) - > u8 \x7b 1 \x7d \x7d", some true)]) := by
    decide +kernel
  obtain ⟨⟨head, is⟩, hread, heq⟩ := Option.map_eq_some_iff.mp hrun
  obtain ⟨hnone, hitems⟩ := Prod.mk.inj heq
  obtain ⟨i, rest, rfl, hi, hrest⟩ := List.map_eq_cons_iff.mp hitems
  obtain ⟨j, rest, rfl, hj, hnil⟩ := List.map_eq_cons_iff.mp hrest
  obtain rfl := List.map_eq_nil_iff.mp hnil
  obtain ⟨hi, -⟩ := Prod.mk.inj hi
  obtain ⟨hj, hmethod⟩ := Prod.mk.inj hj
  obtain ⟨g, hg, hcached⟩ := Option.map_eq_some_iff.mp hmethod
  have huncached : Uncached ([i, j].flatMap itemFunctions) := by
    rw [List.length_eq_zero_iff.mp hnone]
    exact List.forall_mem_nil _
  exact ⟨head, i, j, hread, fun scope => rewrite_of_uncached huncached, hi, hj, g, hg,
    List.any_eq_true.mp hcached⟩

end Scope

end Memoize
