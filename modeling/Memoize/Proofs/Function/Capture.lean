import Memoize.Proofs.Function.Acceptance
import Memoize.Proofs.Function.HolderLifetimes

/-!
# What names stand for in a memoized function

The name of a holder differs from the names that were taken before, from those of the items of the
body and from generated names of parameters. It can be the name of a parameter, or one that the
pattern of a parameter binds, since these are not looked for. Main statement: exactly if it is not,
each parameter stands for itself in the key and in the statements of the body
(`Memoized.resolves_iff`).

## Implementation notes

Names are looked up in layers, the innermost first. What the statements of the body bind themselves
lies further inside and is the same before and after. The variables of the added code, such as the
key, are in no layer: no written name can mean them.
-/

namespace Memoize

/-! ### Names in layers -/

/-- What a name stands for. -/
inductive Meaning where
  /-- A parameter, or what the pattern of a parameter binds. -/
  | parameter
  /-- The holder. -/
  | holder
  /-- An item of the body. -/
  | item
  deriving DecidableEq, Repr

/-- Names that come into scope together. -/
inductive Layer where
  /-- Names that patterns bind. -/
  | bound (names : List String)
  /-- The name of the holder, which is a variable. -/
  | holder (name : String)
  /-- Names that items of the body declare. -/
  | items (names : List String)
  deriving Repr

/-- What a name stands for in layers, the innermost first. A layer hides those outside, but a pattern
does not bind the name of a variable: there this name stands for the variable. -/
def meaning? : List Layer → String → Option Meaning
  | [], _ => none
  | .bound ns :: outer, y =>
    if y ∈ ns ∧ meaning? outer y ≠ some .holder then some .parameter else meaning? outer y
  | .holder x :: outer, y => if y = x then some .holder else meaning? outer y
  | .items ns :: outer, y => if y ∈ ns then some .item else meaning? outer y

/-- Where the holder of a function is declared. -/
inductive Placement where
  /-- Beside the function. -/
  | beside
  /-- At the top of its body. -/
  | inside
  deriving DecidableEq, Repr

/-! ### Parameters under their names -/

/-- The names that the pattern of a parameter binds, as it is written. -/
def Pattern.boundNames (p : Pattern) : List String :=
  match p.plain? with
  | some t => [t.name]
  | none => p.binds

/-- The names that the parameters of a signature bind, as they are written. -/
def Signature.boundNames (s : Signature) : List String :=
  (s.typed.flatMap fun i => i.1.boundNames).map unraw

namespace Parameters

variable {rules : TypeRules}

/-- A generated name is spelled by itself. -/
theorem unraw_generatedBinding (n : Nat) :
    unraw (generatedBinding n).name = "__recall_arg" ++ toString n := by
  change unraw ("__recall_arg" ++ toString n) = _
  exact (Names.unraw_of_head? (by simp)).1

/-- A generated name has not the form of holder names. -/
theorem not_hasHolderForm_generatedBinding (n : Nat) :
    ¬ Names.HasHolderForm (unraw (generatedBinding n).name) := by
  rintro ⟨f, m, h⟩
  rw [unraw_generatedBinding] at h
  -- After the last underscore there are letters in the one name and digits alone in the other.
  have hlist : (Nat.toDigits 10 n).reverse ++ ['g', 'r', 'a'] ++ '_' :: "llacer__".toList =
      (Nat.toDigits 10 m).reverse ++ '_' :: ("__" ++ f ++ "_CACHE").toList.reverse := by
    simpa [Names.numbered] using congrArg (fun x => x.toList.reverse) h
  have hletters : '_' ∉ (Nat.toDigits 10 n).reverse ++ ['g', 'r', 'a'] := by
    simp
  have hdigits : '_' ∉ (Nat.toDigits 10 m).reverse := by
    simp
  obtain ⟨heq, -⟩ := Names.append_cons_inj hletters hdigits hlist
  have hmem : 'a' ∈ (Nat.toDigits 10 m).reverse := by
    rw [← heq]
    simp
  exact absurd (Nat.isDigit_of_mem_toDigits (by decide) (by decide) (List.mem_reverse.mp hmem))
    (by decide)

/-- Inputs that are plain names, each that of a parameter, have the names of the parameters. -/
theorem plain_eq_bindings {is : List (Pattern × Phrase)} {ps : List Param}
    (h : List.Forall₂ (fun i q => i.1.plain? = some q.binding) is ps) :
    is.filterMap (fun i => i.1.plain?) = ps.map (·.binding) := by
  induction h with
  | nil => rfl
  | @cons i q is ps hplain _ ih => simp [hplain, ih]

/-- The names that parameters have in the function, and those that their patterns bind in the body,
are the names that the inputs bind and generated ones. -/
theorem mem_boundNames_iff {is : List Input} {n : Nat} {ps : List Param}
    (h : paramsFrom rules n is = .ok ps) {y : String}
    (hy : ∀ k, unraw (generatedBinding k).name ≠ y) :
    (∃ q ∈ ps, unraw q.binding.name = y ∨ ∃ p ∈ q.pattern?, y ∈ p.binds.map unraw) ↔
      y ∈ ((is.filterMap Input.typed?).flatMap fun i => i.1.boundNames).map unraw := by
  induction is generalizing n ps with
  | nil =>
      obtain rfl := Except.ok.inj h
      simp
  | cons i rest ih =>
      cases i with
      | receiver r => exact ih h
      | typed attributes pattern colon type =>
          obtain ⟨q, qs, hq, hqs, rfl⟩ := Memoized.paramsFrom_typed_eq_ok.mp h
          have hfirst : (unraw q.binding.name = y ∨ ∃ p ∈ q.pattern?, y ∈ p.binds.map unraw) ↔
              y ∈ pattern.boundNames.map unraw := by
            obtain ⟨-, -, -, ⟨t, hplain, hbinding, hnone⟩ | ⟨hplain, hbinding, hsome⟩⟩ :=
              Memoized.paramOf_eq_ok hq
            · simp [Pattern.boundNames, hplain, hbinding, hnone, eq_comm]
            · simp [Pattern.boundNames, hplain, hbinding, hsome, hy]
          have htyped : (Input.typed attributes pattern colon type :: rest).filterMap Input.typed? =
              (pattern, type) :: rest.filterMap Input.typed? := rfl
          rw [htyped, List.flatMap_cons, List.map_append, List.mem_append, ← ih hqs, ← hfirst]
          simp

end Parameters

/-! ### Parameters and the holder in scope -/

namespace Memoized

/-- The names of the parameters of a memoized function. -/
def inputNames (m : Memoized) : List String := m.signature.names.map fun t => unraw t.name

/-- The names that patterns bind in the body of a memoized function. -/
def patternNames (m : Memoized) : List String :=
  (m.body.patterns.flatMap fun p => p.1.binds).map unraw

/-- The layers around the key and the calls of the holder. -/
def layers (m : Memoized) (holder : String) : Placement → List Layer
  | .beside => [.bound m.inputNames, .holder holder]
  | .inside => [.holder holder, .bound m.inputNames]

/-- The layers around the statements of the body, some of which are items. -/
def bodyLayers (m : Memoized) (holder : String) (items : List String) (placement : Placement) :
    List Layer :=
  .bound m.patternNames :: .items items :: m.layers holder placement

/-- Whether names stand for what they stood for in a function before it was memoized: those in the
key for parameters, those that parameters bind for these in the body, if no item of the body has the
name, and that of the holder for the holder. -/
structure Resolves (m : Memoized) (holder : String) (items : List String) (placement : Placement) :
    Prop where
  /-- Each part of the key is a parameter. -/
  key : ∀ k ∈ m.body.parts,
    meaning? (m.layers holder placement) (unraw k.binding.name) = some .parameter
  /-- What parameters bind stands for itself in the body. -/
  body : ∀ y ∈ m.inputNames ++ m.patternNames, y ∉ items →
    meaning? (m.bodyLayers holder items placement) y = some .parameter
  /-- The holder is reached. -/
  holder : meaning? (m.layers holder placement) holder = some .holder

variable {args : CacheArgs} {s : Signature} {body : List Statement} {names names' : Names}
  {owner? : Option Owner} {m : Memoized}

/-- Wherever the holder is declared, its name stands for it, and other names stand for parameters if
they are names of these. -/
theorem meaning?_layers (m : Memoized) (x y : String) (placement : Placement) :
    meaning? (m.layers x placement) y =
      if y = x then some .holder else if y ∈ m.inputNames then some .parameter else none := by
  cases placement with
  | beside => by_cases hyx : y = x <;> simp [layers, meaning?, hyx]
  | inside => by_cases hyx : y = x <;> simp [layers, meaning?, hyx]

/-- In the body names that are no items stand for what they stand for outside, or for what patterns
bind, if they are not that of the holder. -/
theorem meaning?_bodyLayers (m : Memoized) {x y : String} {items : List String}
    (placement : Placement) (hy : y ∉ items) :
    meaning? (m.bodyLayers x items placement) y =
      if y = x then some .holder
      else if y ∈ m.inputNames ++ m.patternNames then some .parameter else none := by
  rcases eq_or_ne y x with rfl | hyx
  · simp [bodyLayers, meaning?, hy, meaning?_layers]
  · by_cases hi : y ∈ m.inputNames <;> by_cases hp : y ∈ m.patternNames <;>
      simp [bodyLayers, meaning?, hy, meaning?_layers, hyx, hi, hp]

/-- Names stand for what they stood for if that of the holder is none that parameters bind. -/
theorem resolves_of_not_mem (hkey : m.signature.names = m.body.parts.map (·.binding)) {x : String}
    (hx : x ∉ m.inputNames ++ m.patternNames) (items : List String) (placement : Placement) :
    m.Resolves x items placement := by
  refine ⟨fun k hk => ?_, fun y hy hitems => ?_, by rw [meaning?_layers, if_pos rfl]⟩
  · have hmem : unraw k.binding.name ∈ m.inputNames := by
      rw [inputNames, hkey, List.map_map]
      exact List.mem_map_of_mem hk
    have hne : unraw k.binding.name ≠ x := by
      rintro rfl
      exact hx (List.mem_append_left _ hmem)
    rw [meaning?_layers, if_neg hne, if_pos hmem]
  · have hne : y ≠ x := by
      rintro rfl
      exact hx hy
    rw [meaning?_bodyLayers m placement hitems, if_neg hne, if_pos hy]

/-- Names stand for what they stood for exactly if that of the holder is none that parameters bind. -/
theorem resolves_iff_not_mem (hkey : m.signature.names = m.body.parts.map (·.binding)) {x : String}
    {items : List String} (hx : x ∉ items) (placement : Placement) :
    m.Resolves x items placement ↔ x ∉ m.inputNames ++ m.patternNames := by
  constructor
  · intro h hmem
    have hbody := h.body x hmem hx
    rw [meaning?_bodyLayers m placement hx, if_pos rfl] at hbody
    cases hbody
  · exact fun hmem => resolves_of_not_mem hkey hmem items placement

/-- The names of the inputs of a memoized function are those in its key. -/
theorem names_eq_bindings (h : parts args s body names owner? = .ok (m, names')) :
    m.signature.names = m.body.parts.map (·.binding) := by
  obtain ⟨p, site, haccept, -, -, rfl⟩ := parts_eq_ok_iff.mp h
  obtain ⟨-, hextract, -⟩ := accept_eq_ok_iff.mp haccept
  obtain ⟨-, ps, output, hps, -, rfl⟩ := extract_eq_ok_iff.mp hextract
  obtain ⟨hnames, -⟩ := Parameters.paramsFrom_rebindFrom hps
  have hbindings : (keyParts ps).map (·.binding) = ps.map (·.binding) := by simp [keyParts]
  change ((Parameters.rebindFrom s.inputs ps).filterMap fun i => i.1.typed?).filterMap
    (fun i => i.1.plain?) = (keyParts ps).map (·.binding)
  rw [hbindings]
  exact Parameters.plain_eq_bindings (hnames.imp fun _ _ hplain => hplain.1)

/-- Of the names that parameters bind in a memoized function only generated ones are not written. -/
theorem mem_names_iff (h : parts args s body names owner? = .ok (m, names')) {y : String}
    (hy : ∀ k, unraw (Parameters.generatedBinding k).name ≠ y) :
    y ∈ m.inputNames ++ m.patternNames ↔ y ∈ s.boundNames := by
  have hinputs : y ∈ m.inputNames ↔ ∃ k ∈ m.body.parts, unraw k.binding.name = y := by
    simp [inputNames, names_eq_bindings h]
  obtain ⟨p, site, haccept, -, -, rfl⟩ := parts_eq_ok_iff.mp h
  obtain ⟨-, hextract, -⟩ := accept_eq_ok_iff.mp haccept
  obtain ⟨-, ps, output, hps, -, rfl⟩ := extract_eq_ok_iff.mp hextract
  have hwritten := Parameters.mem_boundNames_iff hps hy
  rw [List.filterMap_map] at hwritten
  rw [List.mem_append, hinputs, Signature.boundNames, Signature.typed]
  refine Iff.trans ?_ hwritten
  simp only [patternNames, made, Body.of, keyParts, List.mem_map, List.mem_flatMap,
    List.mem_filterMap, Option.map_eq_some_iff]
  constructor
  · rintro (⟨_, ⟨q, hq, rfl⟩, hname⟩ | ⟨y', ⟨_, ⟨q, hq, p, hp, rfl⟩, hy'⟩, rfl⟩)
    · exact ⟨q, hq, .inl (by simpa using hname)⟩
    · exact ⟨q, hq, .inr ⟨p, hp, y', hy', rfl⟩⟩
  · rintro ⟨q, hq, hname | ⟨p, hp, y', hy', rfl⟩⟩
    · exact .inl ⟨_, ⟨q, hq, rfl⟩, by simpa using hname⟩
    · exact .inr ⟨y', ⟨_, ⟨q, hq, p, hp, rfl⟩, hy'⟩, rfl⟩

/-- The holder of a memoized function has the name that is allocated after the names of the body are
taken. -/
theorem holder_allocated {holder : Holder} (h : parts args s body names owner? = .ok (m, names'))
    (hholder : m.holder? = some holder) :
    ∃ x, holder.name = ⟨.name x, none⟩ ∧
      (names.reserveBlock body).allocate s.name.name = some (x, names') := by
  obtain ⟨p, site, -, hplace, -, rfl⟩ := parts_eq_ok_iff.mp h
  rcases place_eq_some hplace with ⟨⟨field, rfl⟩, -⟩ | ⟨x, kind, cacheName, hx, rfl⟩
  · cases hholder
  · obtain rfl := Option.some.inj hholder
    exact ⟨x, rfl, hx⟩

/-! ### Main statement -/

/-- **What names stand for in a memoized function.** The name of a holder is the first free one. It
was not taken, no item of the body declares it, and it is no generated name of a parameter. The
parts of the key are the inputs of the function, and the holder is what the body reaches. Beside the
function and at the top of its body, each name in the key stands for its parameter, each name that a
parameter binds stands for this in the body, and the holder is reached, exactly if the name of the
holder is none that the parameters bind as they are written; which is so if none of these has the
form of holder names. -/
theorem resolves_iff {holder : Holder} (h : parts args s body names owner? = .ok (m, names'))
    (hholder : m.holder? = some holder) :
    ∃ x, holder.name = ⟨.name x, none⟩ ∧ x = (names.reserveBlock body).fresh s.name.name ∧
      x ∉ names.taken ∧ x ∉ (body.flatMap Statement.declares).map unraw ∧
      (∀ k, unraw (Parameters.generatedBinding k).name ≠ x) ∧
      m.signature.names = m.body.parts.map (·.binding) ∧
      (∀ t, reaches m.body t ↔ t = holder.name) ∧
      (∀ placement, m.Resolves x ((body.flatMap Statement.declares).map unraw) placement ↔
        x ∉ s.boundNames) ∧
      (x ∉ s.boundNames → ∀ items placement, m.Resolves x items placement) ∧
      ((∀ y ∈ s.boundNames, ¬ Names.HasHolderForm y) → x ∉ s.boundNames) := by
  obtain ⟨x, hname, hallocate⟩ := holder_allocated h hholder
  obtain ⟨hx, -⟩ := Names.allocate_eq_some hallocate
  obtain ⟨hfree, -⟩ := Names.freshNumber_spec (names.reserveBlock body)
    ((names.reserveBlock body).base s.name.name)
  rw [← hx, Names.reserveBlock, Names.mem_reserveAll, not_or] at hfree
  obtain ⟨hitems, htaken⟩ := hfree
  have hform : Names.HasHolderForm x := hx ▸ Names.hasHolderForm_base _ _ _
  have hgenerated (k : Nat) : unraw (Parameters.generatedBinding k).name ≠ x := by
    rintro rfl
    exact Parameters.not_hasHolderForm_generatedBinding k hform
  have hkey := names_eq_bindings h
  have hreaches := (tied h).1 holder hholder
  refine ⟨x, hname, hx, htaken, hitems, hgenerated, hkey, fun t => ⟨fun ht => ?_, ?_⟩, fun _ => ?_,
    fun hbound items placement => ?_, fun hforms hmem => hforms x hmem hform⟩
  · exact reaches_inj ht hreaches
  · rintro rfl
    exact hreaches
  · rw [resolves_iff_not_mem hkey hitems, mem_names_iff h hgenerated]
  · exact resolves_of_not_mem hkey (mt (mem_names_iff h hgenerated).mp hbound) items placement

/-- A function with a plain parameter, one that is taken apart, and an item that has the first name
for its holder. -/
def pairFunction : String :=
  "fn f(x: u8, (a, b): (u8, u8)) -> u8 \x7b const __F_CACHE_0: u8 = 1; a \x7d"

/-- The holder of such a function has the second name, and every name stands for what it stood for.
-/
theorem resolves_iff_pair :
    ∃ f m names' holder, readFunction? pairFunction = some f ∧
      parts .none f.signature f.body .empty none = .ok (m, names') ∧
      m.holder? = some holder ∧ holder.name = ⟨.name "__F_CACHE_1", none⟩ ∧
      f.signature.boundNames = ["x", "a", "b"] ∧
      m.signature.names.map Token.name = ["x", "__recall_arg1"] ∧
      ∀ items placement, m.Resolves "__F_CACHE_1" items placement := by
  have hrun : (memoizedAlone? pairFunction).bind (fun r => r.2.holder?.map fun holder =>
      (holder.name, r.1.signature.boundNames, r.2.signature.names.map Token.name)) =
      some (⟨.name "__F_CACHE_1", none⟩, ["x", "a", "b"], ["x", "__recall_arg1"]) := by
    decide +kernel
  obtain ⟨⟨f, m⟩, hmemoized, hrun⟩ := Option.bind_eq_some_iff.mp hrun
  obtain ⟨holder, hholder, heq⟩ := Option.map_eq_some_iff.mp hrun
  simp only [Prod.mk.injEq] at heq
  obtain ⟨hname, hbound, hinputs⟩ := heq
  obtain ⟨hf, names', hparts⟩ := memoizedAlone?_eq_some hmemoized
  obtain ⟨x, hx, -, -, -, -, -, -, -, hresolves, -⟩ := resolves_iff hparts hholder
  obtain rfl : x = "__F_CACHE_1" := by
    rw [hname] at hx
    simpa using hx.symm
  exact ⟨f, m, names', holder, hf, hparts, hholder, hname, hbound, hinputs,
    hresolves (by rw [hbound]; decide)⟩

/-- A function with a parameter that has the first name for its holder. -/
def capturedFunction : String :=
  "fn f(__F_CACHE_0: u8) -> u8 \x7b __F_CACHE_0 \x7d"

/-- The holder of such a function has the name of the parameter, and stands for itself where the
parameter is meant, in the key and in the body, wherever it is declared. -/
theorem parameter_captured :
    ∃ f m names' holder, readFunction? capturedFunction = some f ∧
      parts .none f.signature f.body .empty none = .ok (m, names') ∧
      m.holder? = some holder ∧ holder.name = ⟨.name "__F_CACHE_0", none⟩ ∧
      f.signature.boundNames = ["__F_CACHE_0"] ∧
      m.body.parts.map (·.binding.name) = ["__F_CACHE_0"] ∧
      ∀ placement, meaning? (m.layers "__F_CACHE_0" placement) "__F_CACHE_0" = some .holder ∧
        meaning? (m.bodyLayers "__F_CACHE_0" [] placement) "__F_CACHE_0" = some .holder ∧
        ¬ m.Resolves "__F_CACHE_0" [] placement := by
  have hrun : (memoizedAlone? capturedFunction).bind (fun r => r.2.holder?.map fun holder =>
      (holder.name, r.1.signature.boundNames, r.2.body.parts.map (·.binding.name))) =
      some (⟨.name "__F_CACHE_0", none⟩, ["__F_CACHE_0"], ["__F_CACHE_0"]) := by
    decide +kernel
  obtain ⟨⟨f, m⟩, hmemoized, hrun⟩ := Option.bind_eq_some_iff.mp hrun
  obtain ⟨holder, hholder, heq⟩ := Option.map_eq_some_iff.mp hrun
  simp only [Prod.mk.injEq] at heq
  obtain ⟨hname, hbound, hbindings⟩ := heq
  obtain ⟨hf, names', hparts⟩ := memoizedAlone?_eq_some hmemoized
  refine ⟨f, m, names', holder, hf, hparts, hholder, hname, hbound, hbindings, fun placement => ?_⟩
  have houter : meaning? (m.layers "__F_CACHE_0" placement) "__F_CACHE_0" = some .holder := by
    rw [meaning?_layers, if_pos rfl]
  refine ⟨houter, ?_, fun hresolves => ?_⟩
  · rw [meaning?_bodyLayers m placement List.not_mem_nil, if_pos rfl]
  · obtain ⟨k, hk, hkname⟩ := List.mem_map.mp (hbindings ▸ List.mem_singleton_self "__F_CACHE_0")
    have hkey := hresolves.key k hk
    rw [hkname] at hkey
    change meaning? (m.layers "__F_CACHE_0" placement) "__F_CACHE_0" = _ at hkey
    rw [houter] at hkey
    cases hkey

end Memoized

end Memoize
