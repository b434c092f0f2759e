import Memoize.Proofs.Function.Parts
import Memoize.Proofs.Grammar.ItemRules
import Memoize.Proofs.Names.Spelling

/-!
# Renamed holders

The name that is allocated for a holder shows in its declaration and where the body reaches it, and
nowhere else; and since no rule of the grammar tells one such name from another, it does not decide
whether the added code is code. Main statements: two allocators without different owners give the
same parts but for the name of the holder (`sameParts_of_owner`), and where results go to a field
neither the allocator nor the block of a method matters (`sameParts_of_field`).
-/

namespace Memoize

open TokenTree Code Syntax

/-! ### Names with different numbers -/

namespace Names

/-- Numbered names of a function are hidden. -/
theorem isHidden_numbered (names : Names) (f : String) (n : Nat) :
    isHidden (numbered (names.base f) n) = true := by
  obtain ⟨g, k, hform⟩ := hasHolderForm_base names f n
  rw [hform]
  simp [isHidden, numbered]

/-- Allocators of the same owner both have no name for a function, or both give a hidden one. -/
theorem allocate_cases {names names' : Names} (h : names.owner = names'.owner) (f : String) :
    (names.allocate f = none ∧ names'.allocate f = none) ∨
      ∃ x x' new new', names.allocate f = some (x, new) ∧ names'.allocate f = some (x', new') ∧
        isHidden x = true ∧ isHidden x' = true := by
  have hspelled : isSpelledName (names.fresh f) = isSpelledName (names'.fresh f) := by
    simp only [fresh, base_congr h]
    exact isSpelledName_numbered _ _ _
  simp only [allocate, hspelled]
  by_cases hname : isSpelledName (names'.fresh f) = true
  · simp only [hname, if_true]
    exact .inr ⟨_, _, _, _, rfl, rfl, isHidden_numbered names f _, isHidden_numbered names' f _⟩
  · exact .inl ⟨if_neg hname, if_neg hname⟩

end Names

/-! ### Code with hidden names -/

/-- The declarations of holders with hidden names are alike. -/
theorem Holder.tokens_alike {t u : Token} (h : t.word.Alike u.word) (holder : Holder) :
    Alike { holder with name := t }.tokens { holder with name := u }.tokens :=
  .leaf (.same _) (.leaf h (.refl _))

namespace Site

/-- A site for a variable with a hidden name is reached alike. -/
theorem reference_alike {t u : Token} (h : t.word.Alike u.word) (kind : HolderKind)
    (cacheName : String) :
    Alike (Site.variable t kind cacheName).reference
      (Site.variable u kind cacheName).reference := by
  cases kind with
  | memo => exact (Alike.refl _).append (.leaf h .nil)
  | custom type => exact (Alike.refl _).append (.leaf h .nil)

end Site

namespace Body

/-- Bodies that reach their holders alike are alike. -/
theorem tokens_alike {hs ks : List TokenTree} (h : Alike hs ks) (b : Body) :
    Alike { b with holder := hs }.tokens { b with holder := ks }.tokens := by
  have hcall (method : String) (arguments : List TokenTree) :
      Alike ({ b with holder := hs }.call method arguments)
        ({ b with holder := ks }.call method arguments) :=
    (Alike.refl _).append (.group ((h.append (.refl _)).append (.refl _)) .nil)
  unfold tokens
  -- Eleven pieces stand between the two calls of the holder.
  refine ((Alike.append ?_ (hcall _ _)).append (.refl _)).append (.refl _)
  iterate 11 refine Alike.append ?_ (.refl _)
  exact (Alike.refl _).append (hcall _ _)

end Body

namespace Memoized

variable {args : CacheArgs} {s : Signature} {p : Parameters} {body : List Statement}
  {cratePath : Path} {kind : HolderKind} {cacheName : String} {t u : Token}

/-- The code for a holder is code whichever hidden name the holder has. -/
theorem isWellFormed_hidden (h : t.word.Alike u.word) :
    isWellFormed p (.variable t kind cacheName) cratePath
        (Body.of p body (.variable t kind cacheName) cratePath) =
      isWellFormed p (.variable u kind cacheName) cratePath
        (Body.of p body (.variable u kind cacheName) cratePath) := by
  have hreach := Site.reference_alike h kind cacheName
  have hholder : parses (·.item)
        (Holder.tokens ⟨t, kind, cacheName, cratePath, keyType p.params, p.output⟩) =
      parses (·.item) (Holder.tokens ⟨u, kind, cacheName, cratePath, keyType p.params, p.output⟩) :=
    parses_eq _ (fun _ _ => inferInstance) ⟨Holder.tokens_alike h ⟨t, _, _, _, _, _⟩⟩
  have hreference := parses_eq Grammar.anyExpr (fun _ _ => inferInstance) ⟨hreach⟩
  have hbody :
      (parseBlock? (braces (Body.of p body (.variable t kind cacheName) cratePath).tokens)).isSome =
        (parseBlock?
          (braces (Body.of p body (.variable u kind cacheName) cratePath).tokens)).isSome :=
    parseBlock?_isSome_eq
      ⟨.group (Body.tokens_alike hreach (Body.of p body (.field t) cratePath)) .nil⟩
  simp only [isWellFormed, Site.holder?, Option.all_some, hholder, hreference, hbody]
  simp only [Body.of]

/-! ### Renaming -/

/-- A tree in which a name is replaced, if the tree is the name. -/
def renameTree (old new : Token) : TokenTree → TokenTree
  | .leaf t => .leaf (if t = old then new else t)
  | tree => tree

/-- Parts in which the name of the holder is replaced: in its declaration, and in the expression
through which the body reaches it. -/
def renameHolder (m : Memoized) (new : Token) : Memoized :=
  match m.holder? with
  | some h =>
    { m with
      holder? := some { h with name := new }
      body := { m.body with holder := m.body.holder.map (renameTree h.name new) } }
  | none => m

/-- The parts for a variable are those for a variable of another name, with the name replaced. -/
theorem made_variable_eq_rename {x : String} {span : Option Span} :
    made s p body (.variable t kind cacheName) cratePath =
      (made s p body (.variable ⟨.name x, span⟩ kind cacheName) cratePath).renameHolder t := by
  cases kind <;>
    simp [made, renameHolder, Site.holder?, Body.of, Site.reference, renameTree, ofSign, ofSign.go]

/-- Every holder has a name already. -/
theorem exists_eq_renameHolder (m : Memoized) : ∃ t, m = m.renameHolder t := by
  obtain ⟨_ | h, s, b⟩ := m
  · exact ⟨s.name, rfl⟩
  · have hsame : renameTree h.name h.name = id := by
      funext tree
      rcases tree with t | _
      · by_cases ht : t = h.name <;> simp [renameTree, ht]
      · rfl
    exact ⟨h.name, by simp [renameHolder, hsame]⟩

/-! ### The same parts -/

/-- Results of memoization that are both parts, which are related, or the same failure. -/
inductive SameParts (R : Memoized → Memoized → Prop) :
    Except Failure (Memoized × Names) → Except Failure (Memoized × Names) → Prop
  | ok {m m' : Memoized} (related : R m m') (names names' : Names) :
      SameParts R (.ok (m, names)) (.ok (m', names'))
  | error (e : Failure) : SameParts R (.error e) (.error e)

/-- Parts that are related in one way are related in a weaker one. -/
theorem SameParts.mono {R S : Memoized → Memoized → Prop}
    {x y : Except Failure (Memoized × Names)} (h : SameParts R x y)
    (hRS : ∀ m m', R m m' → S m m') : SameParts S x y := by
  cases h with
  | ok related names names' => exact .ok (hRS _ _ related) names names'
  | error e => exact .error e

variable {names names' : Names} {owner? owner?' : Option Owner}

/-- Where results go to a field, neither the names that are taken nor the block of a method matter.
-/
theorem sameParts_of_field (h : args.field?.isSome) :
    SameParts Eq (parts args s body names owner?) (parts args s body names' owner?') := by
  obtain ⟨field, hfield⟩ := Option.isSome_iff_exists.mp h
  have haccept : accept args s owner? = accept args s owner?' := by
    simp only [accept, isInGenericBlock, rules, hfield, Option.isNone_some, Option.isSome_some,
      Bool.false_and, if_true]
  unfold parts place
  rw [haccept, hfield]
  cases accept args s owner?' with
  | error ds => exact .error _
  | ok p =>
    dsimp only
    cases build s p body (.field field) args.effectiveCratePath with
    | none => exact .error _
    | some m => exact .ok rfl _ _

/-- With allocators of the same owner, the parts are the same but for the name of the holder. -/
theorem sameParts_of_owner (h : names.owner = names'.owner) :
    SameParts (fun m m' => ∃ t, m = m'.renameHolder t) (parts args s body names owner?)
      (parts args s body names' owner?) := by
  cases hfield : args.field? with
  | some field =>
    refine (sameParts_of_field (by simp [hfield])).mono ?_
    rintro m _ rfl
    exact m.exists_eq_renameHolder
  | none =>
    unfold parts place
    rw [hfield]
    cases accept args s owner? with
    | error ds => exact .error _
    | ok p =>
      have howner : (names.reserveBlock body).owner = (names'.reserveBlock body).owner := by
        simp only [Names.reserveBlock, Names.owner_reserveAll, h]
      rcases Names.allocate_cases howner s.name.name with
        ⟨hnone, hnone'⟩ | ⟨x, x', new, new', hsome, hsome', hx, hx'⟩
      · simp only [hnone, hnone', Option.map_none]
        exact .error _
      · simp only [hsome, hsome', Option.map_some, build_eq]
        rw [isWellFormed_hidden (t := ⟨.name x, none⟩) (u := ⟨.name x', none⟩) (.hidden hx hx')]
        generalize isWellFormed p _ _ _ = isCode
        cases isCode with
        | true => exact .ok ⟨_, made_variable_eq_rename⟩ _ _
        | false => exact .error _

end Memoized

end Memoize
