import Memoize.Proofs.Function.Annotation
import Memoize.Proofs.Function.Parts
import Memoize.Proofs.Names.Fresh
import Memoize.Scope

/-!
# Holders of a scope

Each function of a scope that is memoized with a holder of its own gets a name from the allocator of
the scope. Main statements: the holders of a block and of the items of a module are named by one run
of the allocator (`members_serves`, `items_serves`), in which only names are taken that bodies
declare.
-/

namespace Memoize

/-! ### One function -/

namespace Memoized

/-- Where results go: to a field, or to a holder whose name is allocated after the names of the body
are taken. -/
theorem place_eq_some {args : CacheArgs} {s : Signature} {body : List Statement}
    {names names' : Names} {site : Site} (h : place args s body names = some (site, names')) :
    ((∃ field, site = .field field) ∧ names' = names) ∨
      ∃ x kind cacheName, (names.reserveBlock body).allocate s.name.name = some (x, names') ∧
        site = .variable ⟨.name x, none⟩ kind cacheName := by
  unfold place at h
  cases hf : args.field? with
  | some field =>
      rw [hf] at h
      obtain ⟨rfl, rfl⟩ := Prod.mk.inj (Option.some.inj h)
      exact Or.inl ⟨⟨field, rfl⟩, rfl⟩
  | none =>
      rw [hf] at h
      obtain ⟨⟨x, new⟩, hx, heq⟩ := Option.map_eq_some_iff.mp h
      obtain ⟨rfl, rfl⟩ := Prod.mk.inj heq
      exact Or.inr ⟨x, _, _, hx, rfl⟩

/-- A memoized function keeps its name. It has no holder of its own, or one whose name is allocated
after the names of the body are taken. -/
theorem parts_eq_ok {args : CacheArgs} {s : Signature} {body : List Statement}
    {names names' : Names} {owner? : Option Owner} {m : Memoized}
    (h : parts args s body names owner? = .ok (m, names')) :
    m.signature.name = s.name ∧
      (m.holder? = none ∧ names' = names ∨
        ∃ x holder, (names.reserveBlock body).allocate s.name.name = some (x, names') ∧
          m.holder? = some holder ∧ holder.name.name = x) := by
  obtain ⟨p, site, -, hplace, -, rfl⟩ := parts_eq_ok_iff.mp h
  refine ⟨rfl, ?_⟩
  rcases place_eq_some hplace with ⟨⟨field, rfl⟩, rfl⟩ | ⟨x, kind, cacheName, hx, rfl⟩
  · exact Or.inl ⟨rfl, rfl⟩
  · exact Or.inr ⟨x, _, hx, rfl, rfl⟩

end Memoized

namespace Scope

/-! ### Placed functions -/

/-- The function with the name of its holder, if it has a holder of its own. -/
def Outcome.placed : Outcome → List (String × String)
  | memoized f => f.parts.holder?.toList.map fun h => (f.parts.signature.name.name, h.name.name)
  | _ => []

/-- The method with the name of its holder, if it has one. -/
def NewMember.placed : NewMember → List (String × String)
  | function o => o.placed
  | kept _ => []

/-- The methods with holders, each with the name of its holder. -/
def NewBlock.placed (b : NewBlock) : List (String × String) := b.members.flatMap NewMember.placed

/-- The functions of an item with holders, each with the name of its holder. -/
def NewItem.placed : NewItem → List (String × String)
  | function o => o.placed
  | block b => b.placed
  | kept _ => []

/-- The holders in a module, in order. -/
def NewModule.holders (m : NewModule) : List Holder := m.items.flatMap NewItem.holders

/-- The functions of a module with holders, each with the name of its holder. -/
def NewModule.placed (m : NewModule) : List (String × String) := m.items.flatMap NewItem.placed

/-- The names of holders. -/
def holderNames (hs : List Holder) : List String := hs.map fun h => h.name.name

/-- The names of the holder of a function are those it is placed with. -/
theorem Outcome.map_placed (o : Outcome) :
    o.placed.map (·.2) = holderNames o.holder?.toList := by
  cases o with
  | memoized f => simp [placed, holder?, holderNames]
  | untouched f => rfl
  | refused f ds => rfl

/-- The names of the holders of a block are those its methods are placed with. -/
theorem NewBlock.map_placed (b : NewBlock) : b.placed.map (·.2) = holderNames b.holders := by
  obtain ⟨b, ms⟩ := b
  simp only [placed, holders]
  induction ms with
  | nil => rfl
  | cons m rest ih =>
      rw [List.flatMap_cons, List.map_append, ih]
      cases m with
      | kept m => rfl
      | function o =>
          rw [NewMember.placed, Outcome.map_placed]
          cases ho : o.holder? with
          | none => simp [NewMember.holder?, ho, holderNames]
          | some h => simp [NewMember.holder?, ho, holderNames]

/-- The names of the holders of an item are those its functions are placed with. -/
theorem NewItem.map_placed (i : NewItem) : i.placed.map (·.2) = holderNames i.holders := by
  cases i with
  | function o => exact o.map_placed
  | block b => exact b.map_placed
  | kept i => rfl

/-- The names of the holders in a module are those its functions are placed with. -/
theorem NewModule.map_placed (m : NewModule) : m.placed.map (·.2) = holderNames m.holders := by
  simp only [placed, holders, holderNames, List.map_flatMap]
  exact congrArg (m.items.flatMap ·) (funext NewItem.map_placed)

/-! ### Runs of the allocator -/

variable {scope : ScopeArgs} {owner? : Option Owner} {names names' : Names}

/-- The names that the body of a function declares. -/
def bodyNames (f : Function) : List String := f.body.flatMap Statement.declares

/-- A function that asks for caching has the same signature and body without its attribute. -/
theorem takeCached_eq_some {f g : Function} {a : Attribute} (h : f.takeCached = some (a, g)) :
    g.signature = f.signature ∧ g.body = f.body := by
  cases Function.takeCached_eq_some_iff.mp h with
  | outer _ _ _ => exact ⟨rfl, rfl⟩
  | inner _ _ _ _ => exact ⟨rfl, rfl⟩

/-- Memoizing a function of a scope is memoizing its signature and body by some arguments. -/
theorem memoize_eq_ok {a : Attribute} {f : Function} {r : Memoized × Names}
    (h : memoize scope a f names owner? = .ok r) :
    ∃ args, Memoized.parts args f.signature f.body names owner? = .ok r := by
  unfold memoize at h
  split at h
  · cases h
  · split at h
    · cases h
    · exact ⟨_, h⟩

/-- A function of a scope takes the name of its holder, if it has one. -/
theorem function_serves {R : String → Prop} {f : Function} {o : Outcome}
    (hR : ∀ y ∈ bodyNames f, R (unraw y))
    (h : function scope owner? names f = some (o, names')) :
    Names.Serves R names o.placed names' := by
  unfold function at h
  split at h
  · obtain ⟨rfl, rfl⟩ := Prod.mk.inj (Option.some.inj h)
    exact .done names
  · rename_i a g htake
    obtain ⟨hsignature, hbody⟩ := takeCached_eq_some htake
    split at h
    · rename_i r new hok
      obtain ⟨rfl, rfl⟩ := Prod.mk.inj (Option.some.inj h)
      obtain ⟨args, hparts⟩ := memoize_eq_ok hok
      obtain ⟨hname, ⟨hnone, rfl⟩ | ⟨x, holder, hx, hsome, rfl⟩⟩ := Memoized.parts_eq_ok hparts
      · simp only [Outcome.placed, MemoizedFunction.of, hnone]
        exact .done _
      · simp only [Outcome.placed, MemoizedFunction.of, hsome, hname]
        rw [hbody] at hx
        exact .reserve hR (.allocate hx (.done _))
    · obtain ⟨rfl, rfl⟩ := Prod.mk.inj (Option.some.inj h)
      exact .done names
    · cases h

/-- The parts of a run over members with a method at their head. -/
theorem members_cons {owner : Owner} {ms : List Member} {f : Function} {r : List NewMember}
    (h : members scope owner names (.function f :: ms) = some (r, names')) :
    ∃ o names₁ r₁, function scope (some owner) names f = some (o, names₁) ∧
      members scope owner names₁ ms = some (r₁, names') ∧ r = .function o :: r₁ := by
  simp only [members] at h
  split at h
  · cases h
  · rename_i o names₁ ho
    obtain ⟨⟨r₁, last⟩, h₁, heq⟩ := Option.map_eq_some_iff.mp h
    obtain ⟨rfl, rfl⟩ := Prod.mk.inj heq
    exact ⟨o, names₁, r₁, ho, h₁, rfl⟩

/-- The parts of a run over items with a given one at their head. -/
theorem items_cons {is : List Item} {i : Item} {r : List NewItem}
    (h : items scope names (i :: is) = some (r, names')) :
    ∃ j names₁ r₁, item scope names i = some (j, names₁) ∧
      items scope names₁ is = some (r₁, names') ∧ r = j :: r₁ := by
  simp only [items] at h
  split at h
  · cases h
  · rename_i j names₁ hj
    obtain ⟨⟨r₁, last⟩, h₁, heq⟩ := Option.map_eq_some_iff.mp h
    obtain ⟨rfl, rfl⟩ := Prod.mk.inj heq
    exact ⟨j, names₁, r₁, hj, h₁, rfl⟩

/-- The names that the bodies of the methods of a block declare. -/
def memberBodyNames : Member → List String
  | .function f => bodyNames f
  | .other _ _ => []

/-- The methods of a block take the names of their holders in order. -/
theorem members_serves {R : String → Prop} {owner : Owner} {ms : List Member}
    {r : List NewMember} (hR : ∀ m ∈ ms, ∀ y ∈ memberBodyNames m, R (unraw y))
    (h : members scope owner names ms = some (r, names')) :
    Names.Serves R names (r.flatMap NewMember.placed) names' := by
  induction ms generalizing names r with
  | nil =>
      obtain ⟨rfl, rfl⟩ := Prod.mk.inj (Option.some.inj h)
      exact .done names
  | cons m rest ih =>
      cases m with
      | other n p =>
          obtain ⟨⟨r', new⟩, hr, heq⟩ := Option.map_eq_some_iff.mp h
          obtain ⟨rfl, rfl⟩ := Prod.mk.inj heq
          have htail := ih (fun m hm => hR m (List.mem_cons_of_mem _ hm)) hr
          exact htail
      | function f =>
          obtain ⟨o, names₁, r', hf, hr, rfl⟩ := members_cons h
          exact (function_serves (hR _ List.mem_cons_self) hf).append
            (ih (fun m hm => hR m (List.mem_cons_of_mem _ hm)) hr)

/-- The methods of a block take the names of their holders in order. -/
theorem block_serves {R : String → Prop} {b : ImplBlock} {r : NewBlock}
    (hR : ∀ m ∈ b.members, ∀ y ∈ memberBodyNames m, R (unraw y))
    (h : block scope names b = some (r, names')) : Names.Serves R names r.placed names' := by
  obtain ⟨⟨ms, new⟩, hms, heq⟩ := Option.map_eq_some_iff.mp h
  obtain ⟨rfl, rfl⟩ := Prod.mk.inj heq
  exact members_serves hR hms

/-- The functions of an item take the names of their holders. -/
theorem item_serves {i : Item} {r : NewItem} (h : item scope names i = some (r, names')) :
    Names.Serves (fun _ => True) names r.placed names' := by
  cases i with
  | function f =>
      obtain ⟨⟨o, new⟩, ho, heq⟩ := Option.map_eq_some_iff.mp h
      obtain ⟨rfl, rfl⟩ := Prod.mk.inj heq
      exact function_serves (fun _ _ => trivial) ho
  | block b =>
      obtain ⟨⟨o, new⟩, ho, heq⟩ := Option.map_eq_some_iff.mp h
      obtain ⟨rfl, rfl⟩ := Prod.mk.inj heq
      exact block_serves (fun _ _ _ _ => trivial) ho
  | module head is =>
      obtain ⟨rfl, rfl⟩ := Prod.mk.inj (Option.some.inj h)
      exact .done names
  | other names further p =>
      obtain ⟨rfl, rfl⟩ := Prod.mk.inj (Option.some.inj h)
      exact .done _

/-- The functions of the items of a module take the names of their holders in order. -/
theorem items_serves {is : List Item} {r : List NewItem}
    (h : items scope names is = some (r, names')) :
    Names.Serves (fun _ => True) names (r.flatMap NewItem.placed) names' := by
  induction is generalizing names r with
  | nil =>
      obtain ⟨rfl, rfl⟩ := Prod.mk.inj (Option.some.inj h)
      exact .done names
  | cons i rest ih =>
      obtain ⟨j, names₁, r', hi, hr, rfl⟩ := items_cons h
      exact (item_serves hi).append (ih hr)

/-- The functions of a module take the names of their holders in order, none of them being a name
that the items declare. -/
theorem module_serves {head : ModuleHead} {is : List Item} {r : NewModule}
    (h : module scope head is = some r) :
    ∃ names', Names.Serves (fun _ => True) (Names.ofItems is) r.placed names' := by
  obtain ⟨⟨new, names'⟩, hr, rfl⟩ := Option.map_eq_some_iff.mp h
  exact ⟨names', items_serves hr⟩

end Scope

end Memoize
