import Memoize.Proofs.Function.Renaming
import Memoize.Proofs.Grammar.FieldReference
import Memoize.Proofs.Names.Spelling

/-!
# Code that fits

Memoization checks the code that it adds against the grammar and gives up if it is no code. Whether
it does depends on the arguments, the function and the owner that qualifies its names, and not on
the names that are taken before: main statement `parts_eq_malformed_iff`.

## Implementation notes

`Fits` speaks of one name for the holder, that of `standIn`. The grammar does not tell hidden names
from each other (`isWellFormed_hidden`), so what holds for this name holds for the allocated one.
-/

namespace Memoize

open TokenTree Code Syntax

/-! ### The code for a function -/

namespace Memoized

/-- A name that no rule of the grammar knows. -/
def hiddenName : Token := ⟨.name "__", none⟩

/-- Where the results of a function are kept, with a hidden name in the place of an allocated one.
-/
def standIn (args : CacheArgs) (s : Signature) : Site :=
  match args.field? with
  | some field => .field field
  | none =>
    .variable hiddenName
      (match args.holder with
        | some type => .custom type
        | none => .memo)
      (args.name.getD (unraw s.name.name))

/-- The code that memoization adds to a function fits the places it is put at. -/
structure Fits (args : CacheArgs) (owner? : Option String) (s : Signature) (p : Parameters)
    (body : List Statement) : Prop where
  /-- A holder of its own can be named. -/
  name : args.field? = none → Names.Nameable owner? s.name.name
  /-- The parts of the key have types and values. -/
  parts : ∀ k ∈ keyParts p.params,
    parses Grammar.anyType k.typeTokens ∧ parses Grammar.anyExpr k.exprTokens
  /-- The key has a type. -/
  keyType : parses Grammar.anyType (keyType p.params)
  /-- The key has a value. -/
  keyExpr : parses Grammar.anyExpr (keyExpr p.params)
  /-- A holder of its own is declared by an item. -/
  holder : ∀ h ∈ (standIn args s).holder? args.effectiveCratePath p, parses (·.item) h.tokens
  /-- The holder can be referred to. -/
  reference : parses Grammar.anyExpr (standIn args s).reference
  /-- The body is a block. -/
  body : (parseBlock? (braces
    (Body.of p body (standIn args s) args.effectiveCratePath).tokens)).isSome

variable {args : CacheArgs} {s : Signature} {p : Parameters} {body : List Statement}
  {names names' : Names} {owner? : Option Owner}

/-- Code fits if a holder can be named and the code with a hidden name is well-formed. -/
theorem fits_iff {naming? : Option String} :
    Fits args naming? s p body ↔
      (args.field? = none → Names.Nameable naming? s.name.name) ∧
        isWellFormed p (standIn args s) args.effectiveCratePath
          (Body.of p body (standIn args s) args.effectiveCratePath) = true := by
  have hparts : (Body.of p body (standIn args s) args.effectiveCratePath).parts =
    keyParts p.params := rfl
  simp only [isWellFormed, Bool.and_eq_true, List.all_eq_true, Option.all_eq_true, hparts]
  constructor
  · rintro ⟨hname, hparts, htype, hexpr, hholder, hreference, hbody⟩
    exact ⟨hname, ⟨⟨⟨⟨hparts, htype⟩, hexpr⟩, hholder⟩, hreference⟩, hbody⟩
  · rintro ⟨hname, ⟨⟨⟨⟨hparts, htype⟩, hexpr⟩, hholder⟩, hreference⟩, hbody⟩
    exact ⟨hname, hparts, htype, hexpr, hholder, hreference, hbody⟩

/-- A holder of its own can always be referred to. -/
theorem parses_reference_of_variable (h : args.field? = none) :
    parses Grammar.anyExpr (standIn args s).reference := by
  rw [standIn, h]
  cases args.holder with
  | none =>
    change parses Grammar.anyExpr (ofSign "&" ++ [.leaf hiddenName])
    decide +kernel
  | some type =>
    change parses Grammar.anyExpr (ofSign "&" ++ ofSign "*" ++ [.leaf hiddenName])
    decide +kernel

/-- A function has no place for its results exactly if it needs a holder of its own that cannot be
named. -/
theorem place_eq_none_iff :
    place args s body names = none ↔
      args.field? = none ∧ ¬ Names.Nameable names.owner s.name.name := by
  unfold place
  cases args.field? with
  | some field => simp
  | none =>
    rw [Option.map_eq_none_iff, Names.allocate_eq_none_iff, Names.reserveBlock,
      Names.owner_reserveAll]
    simp

/-- The place of results and the one with a hidden name take well-formed code alike. -/
theorem isWellFormed_of_place {site : Site} (h : place args s body names = some (site, names')) :
    isWellFormed p site args.effectiveCratePath (Body.of p body site args.effectiveCratePath) =
      isWellFormed p (standIn args s) args.effectiveCratePath
        (Body.of p body (standIn args s) args.effectiveCratePath) := by
  unfold place at h
  unfold standIn
  cases hfield : args.field? with
  | some field =>
    rw [hfield] at h
    obtain ⟨rfl, -⟩ := Prod.mk.inj (Option.some.inj h)
    rfl
  | none =>
    rw [hfield] at h
    obtain ⟨⟨x, new⟩, hx, heq⟩ := Option.map_eq_some_iff.mp h
    obtain ⟨rfl, -⟩ := Prod.mk.inj heq
    obtain ⟨rfl, -⟩ := Names.allocate_eq_some hx
    exact isWellFormed_hidden (.hidden (Names.isHidden_numbered _ _ _) (by decide))

/-- The added code of a function is no code exactly if the function is accepted and the code does
not fit. -/
theorem parts_eq_malformed_iff :
    parts args s body names owner? = .error .malformed ↔
      ∃ p, accept args s owner? = .ok p ∧ ¬ Fits args names.owner s p body := by
  unfold parts
  cases accept args s owner? with
  | error ds => simp
  | ok p =>
    simp only [Except.ok.injEq, exists_eq_left', fits_iff]
    cases hplace : place args s body names with
    | none =>
      obtain ⟨hfield, hname⟩ := place_eq_none_iff.mp hplace
      simp [hfield, hname]
    | some r =>
      obtain ⟨site, new⟩ := r
      have hname : args.field? = none → Names.Nameable names.owner s.name.name := by
        intro hfield
        by_contra hname
        rw [place_eq_none_iff.mpr ⟨hfield, hname⟩] at hplace
        cases hplace
      simp only [build_eq, isWellFormed_of_place hplace]
      by_cases hwell : isWellFormed p (standIn args s) args.effectiveCratePath
          (Body.of p body (standIn args s) args.effectiveCratePath) = true
      · simpa [hwell] using hname
      · simp [hwell]

end Memoized

end Memoize
