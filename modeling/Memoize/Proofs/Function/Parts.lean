import Mathlib.Data.List.Forall2
import Memoize.Memoized

/-!
# Memoized parts

What `Memoized.parts` makes of a function, in one statement for each of its ends: a refusal depends
on the arguments, the signature and the owner only (`parts_eq_refused_iff`), and the parts of a
memoized function are made from one site (`parts_eq_ok_iff`). From these: only patterns change in
the signature (`Memoized.signature_rebound`), and the body looks into the holder that is declared
with it (`Memoized.tied`), which there is exactly for a function without a receiver
(`Memoized.holder?_isSome`).
-/

namespace Memoize

namespace Memoized

variable {args : CacheArgs} {s : Signature} {body : List Statement} {names names' : Names}
  {owner? : Option Owner} {m : Memoized}

/-! ### The ends of memoization -/

/-- The parts of a function with given parameters for a site. -/
def made (s : Signature) (p : Parameters) (body : List Statement) (site : Site)
    (cratePath : Path) : Memoized :=
  ⟨site.holder? cratePath p, p.rebind s, Body.of p body site cratePath⟩

/-- Parts are built if they are code, and then they are those made for the site. -/
theorem build_eq (s : Signature) (p : Parameters) (body : List Statement) (site : Site)
    (cratePath : Path) :
    build s p body site cratePath =
      if isWellFormed p site cratePath (Body.of p body site cratePath) then
        some (made s p body site cratePath)
      else none := rfl

/-- Whether a function is refused, and why, depends on its arguments, its signature and its owner
only. -/
theorem parts_eq_refused_iff {ds : List Diagnostic} :
    parts args s body names owner? = .error (.refused ds) ↔ accept args s owner? = .error ds := by
  unfold parts
  cases accept args s owner? with
  | error e => simp
  | ok p =>
      refine iff_of_false ?_ (by simp)
      cases place args s body names with
      | none => simp
      | some r =>
          obtain ⟨site, new⟩ := r
          cases hbuild : build s p body site args.effectiveCratePath with
          | none => simp [hbuild]
          | some m => simp [hbuild]

/-- A function is memoized if it is accepted, and the code for the site of its results is code. -/
theorem parts_eq_ok_iff :
    parts args s body names owner? = .ok (m, names') ↔
      ∃ p site, accept args s owner? = .ok p ∧ place args s body names = some (site, names') ∧
        isWellFormed p site args.effectiveCratePath
          (Body.of p body site args.effectiveCratePath) = true ∧
        m = made s p body site args.effectiveCratePath := by
  constructor
  · intro h
    unfold parts at h
    split at h
    · cases h
    · rename_i p haccept
      split at h
      · cases h
      · rename_i site new hplace
        rw [build_eq] at h
        split at h
        · cases h
        · rename_i m' hbuild
          obtain ⟨rfl, rfl⟩ := Prod.mk.inj (Except.ok.inj h)
          split at hbuild
          · rename_i hwell
            exact ⟨p, site, haccept, hplace, hwell, (Option.some.inj hbuild).symm⟩
          · cases hbuild
  · rintro ⟨p, site, haccept, hplace, hwell, rfl⟩
    simp only [parts, haccept, hplace, build_eq, hwell, if_true]

/-- A function that is accepted has the parameters that are read off its signature, and its receiver
fits. -/
theorem accept_eq_ok_iff {p : Parameters} :
    accept args s owner? = .ok p ↔
      isInGenericBlock args owner? = false ∧ Parameters.extract (rules args owner?) s = .ok p ∧
        checkReceiver args s p = .ok () := by
  unfold accept
  cases isInGenericBlock args owner? with
  | true => simp
  | false =>
      cases Parameters.extract (rules args owner?) s with
      | error e => simp
      | ok q =>
          cases hreceiver : checkReceiver args s q with
          | error e =>
              simp only [hreceiver, Except.map]
              refine iff_of_false (by simp) ?_
              rintro ⟨-, heq, hok⟩
              obtain rfl := Except.ok.inj heq
              simp [hreceiver] at hok
          | ok u =>
              simp only [hreceiver, Except.map]
              constructor
              · intro h
                obtain rfl := Except.ok.inj h
                exact ⟨trivial, rfl, hreceiver⟩
              · rintro ⟨-, heq, -⟩
                exact heq

/-- The parameters of a function are its receiver, what is read off its inputs and its resolved
result. -/
theorem extract_eq_ok_iff {rules : TypeRules} {p : Parameters} :
    Parameters.extract rules s = .ok p ↔
      Parameters.checkQualifiers s = .ok () ∧
        ∃ ps output, Parameters.paramsFrom rules 0 (s.inputs.map (·.1)) = .ok ps ∧
          Parameters.resultOf rules s = .ok output ∧ p = ⟨s.receiver?, ps, output⟩ := by
  unfold Parameters.extract
  cases Parameters.checkQualifiers s with
  | error e => simp
  | ok u =>
      cases Parameters.paramsFrom rules 0 (s.inputs.map (·.1)) with
      | error e => simp
      | ok ps =>
          cases Parameters.resultOf rules s with
          | error e => simp [Except.map]
          | ok output => simp [Except.map, eq_comm]

/-- The receiver of a function that is accepted is borrowed if results go to a field, and missing if
they go to a variable. -/
theorem receiver_of_accept {p : Parameters} (h : accept args s owner? = .ok p) :
    s.receiver?.isSome = args.field?.isSome := by
  obtain ⟨-, hextract, hreceiver⟩ := accept_eq_ok_iff.mp h
  obtain ⟨-, ps, output, -, -, rfl⟩ := extract_eq_ok_iff.mp hextract
  unfold checkReceiver at hreceiver
  cases hfield : args.field?.isSome with
  | true =>
      rw [hfield, if_pos rfl] at hreceiver
      cases hs : s.receiver? with
      | some r => rfl
      | none => simp [Parameters.hasBorrowedReceiver, hs] at hreceiver
  | false =>
      rw [hfield, if_neg Bool.false_ne_true] at hreceiver
      cases hs : s.receiver? with
      | some r => simp [hs] at hreceiver
      | none => rfl

/-! ### Signatures -/

/-- The pattern that stands for the parameter with a number if its own pattern is no plain name. -/
def bindingPattern (n : Nat) : Pattern :=
  let t := Parameters.generatedBinding n
  ⟨.word t, some t, [t.name]⟩

/-- An input of which at most the pattern is replaced: by a generated name, if it is no plain name
itself. -/
inductive Rebound : Input × Option Token → Input × Option Token → Prop
  | receiver (r : Receiver) (comma : Option Token) :
      Rebound (.receiver r, comma) (.receiver r, comma)
  | plain {pattern : Pattern} (h : pattern.plain?.isSome) (attributes : List Attribute)
      (colon : Token) (type : Phrase) (comma : Option Token) :
      Rebound (.typed attributes pattern colon type, comma)
        (.typed attributes pattern colon type, comma)
  | pattern {pattern : Pattern} (h : pattern.plain? = none) (n : Nat)
      (attributes : List Attribute) (colon : Token) (type : Phrase) (comma : Option Token) :
      Rebound (.typed attributes pattern colon type, comma)
        (.typed attributes (bindingPattern n) colon type, comma)

/-- The parameter that is read off an input keeps its pattern exactly if it is no plain name. -/
theorem paramOf_eq_ok {rules : TypeRules} {n : Nat} {pattern : Pattern} {type : Phrase} {p : Param}
    (h : Parameters.paramOf rules n pattern type = .ok p) :
    ∃ resolved, rules.resolveParam type = .ok resolved ∧ p.type = resolved ∧
      ((∃ t, pattern.plain? = some t ∧ p.binding = t ∧ p.pattern? = none) ∨
        pattern.plain? = none ∧ p.binding = Parameters.generatedBinding n ∧
          p.pattern? = some pattern) := by
  unfold Parameters.paramOf at h
  cases hresolve : rules.resolveParam type with
  | error e =>
      rw [hresolve] at h
      cases h
  | ok resolved =>
      rw [hresolve] at h
      refine ⟨resolved, rfl, ?_⟩
      cases hplain : pattern.plain? with
      | some t =>
          simp only [Except.map, hplain] at h
          obtain rfl := Except.ok.inj h
          exact ⟨rfl, Or.inl ⟨t, rfl, rfl, rfl⟩⟩
      | none =>
          simp only [Except.map, hplain] at h
          obtain rfl := Except.ok.inj h
          exact ⟨rfl, Or.inr ⟨rfl, rfl, rfl⟩⟩

/-- The parameters that are read off inputs are that of the first, if it is no receiver, and those
of the rest. -/
theorem paramsFrom_typed_eq_ok {rules : TypeRules} {n : Nat} {attributes : List Attribute}
    {pattern : Pattern} {colon : Token} {type : Phrase} {rest : List Input} {ps : List Param} :
    Parameters.paramsFrom rules n (.typed attributes pattern colon type :: rest) = .ok ps ↔
      ∃ p qs, Parameters.paramOf rules n pattern type = .ok p ∧
        Parameters.paramsFrom rules (n + 1) rest = .ok qs ∧ ps = p :: qs := by
  rw [Parameters.paramsFrom]
  cases Parameters.paramOf rules n pattern type with
  | error e => simp
  | ok p =>
      cases Parameters.paramsFrom rules (n + 1) rest with
      | error e => simp [Except.map]
      | ok qs => simp [Except.map, eq_comm]

/-- Putting the bindings of parameters into the inputs they were read off replaces only patterns
that are no plain names. -/
theorem rebindFrom_rebound {rules : TypeRules} {is : List (Input × Option Token)} {n : Nat}
    {ps : List Param} (h : Parameters.paramsFrom rules n (is.map (·.1)) = .ok ps) :
    List.Forall₂ Rebound is (Parameters.rebindFrom is ps) := by
  induction is generalizing n ps with
  | nil =>
      unfold Parameters.rebindFrom
      exact .nil
  | cons i rest ih =>
      obtain ⟨input, comma⟩ := i
      cases input with
      | receiver r =>
          unfold Parameters.rebindFrom
          exact .cons (.receiver r comma) (ih h)
      | typed attributes pattern colon type =>
          obtain ⟨p, qs, hp, hqs, rfl⟩ := paramsFrom_typed_eq_ok.mp h
          rw [Parameters.rebindFrom]
          refine .cons ?_ (ih hqs)
          obtain ⟨-, -, -, ⟨t, hplain, -, hnone⟩ | ⟨hplain, hbinding, hsome⟩⟩ := paramOf_eq_ok hp
          · rw [hnone]
            exact .plain (by simp [hplain]) attributes colon type comma
          · rw [hsome, hbinding]
            exact .pattern hplain n attributes colon type comma

/-- Only patterns change in the signature of a memoized function. -/
theorem signature_rebound (h : parts args s body names owner? = .ok (m, names')) :
    m.signature = { s with inputs := m.signature.inputs } ∧
      List.Forall₂ Rebound s.inputs m.signature.inputs := by
  obtain ⟨p, site, haccept, -, -, rfl⟩ := parts_eq_ok_iff.mp h
  obtain ⟨-, hextract, -⟩ := accept_eq_ok_iff.mp haccept
  obtain ⟨-, ps, output, hps, -, rfl⟩ := extract_eq_ok_iff.mp hextract
  exact ⟨rfl, rebindFrom_rebound hps⟩

/-! ### Holders and bodies -/

/-- The part of a body that looks a result up. -/
def lookup (b : Body) : List TokenTree :=
  b.call "get" (TokenTree.ofSign "&" ++ [TokenTree.ofName "key"])

/-- The part of a body that stores a result. -/
def store (b : Body) : List TokenTree :=
  b.call "put" ([TokenTree.ofName "key"] ++ TokenTree.ofSign "," ++
    Code.cloned (TokenTree.ofName "result"))

/-- A body contains the lookup of its result. -/
theorem lookup_infix (b : Body) : lookup b <:+: b.tokens := by
  unfold Body.tokens lookup
  -- Fourteen pieces follow the lookup; they are taken away one by one.
  iterate 14 refine List.IsInfix.trans ?_ (List.prefix_append _ _).isInfix
  exact (List.suffix_append _ _).isInfix

/-- A body contains the storing of its result. -/
theorem store_infix (b : Body) : store b <:+: b.tokens := by
  unfold Body.tokens store
  exact ⟨_, _, (List.append_assoc _ _ _).symm⟩

/-- Whether a body reaches its holder as a variable with a name. -/
def reaches (b : Body) (name : Token) : Prop :=
  ∃ kind cacheName, b.holder = (Site.variable name kind cacheName).reference

/-- The expression for a variable tells its name. -/
theorem reaches_inj {b : Body} {x y : Token} (hx : reaches b x) (hy : reaches b y) : x = y := by
  obtain ⟨k, c, hx⟩ := hx
  obtain ⟨k', c', hy⟩ := hy
  rw [hx] at hy
  have hlast := congrArg List.getLast? hy
  cases k <;> cases k' <;> simpa [Site.reference] using hlast

/-- The expression for a field reaches no variable. -/
theorem not_reaches_field {b : Body} {field x : Token}
    (h : b.holder = (Site.field field).reference) : ¬ reaches b x := by
  rintro ⟨k, c, hx⟩
  rw [h] at hx
  have hlength := congrArg List.length hx
  cases k <;> simp [Site.reference, TokenTree.ofSign, TokenTree.ofSign.go] at hlength

/-- A function without a receiver has a holder, and a method has none. -/
theorem holder?_isSome (h : parts args s body names owner? = .ok (m, names')) :
    m.holder?.isSome = s.receiver?.isNone := by
  obtain ⟨p, site, haccept, hplace, -, rfl⟩ := parts_eq_ok_iff.mp h
  have hreceiver := receiver_of_accept haccept
  unfold place at hplace
  cases hfield : args.field? with
  | some field =>
      rw [hfield] at hplace hreceiver
      obtain ⟨rfl, -⟩ := Prod.mk.inj (Option.some.inj hplace)
      rw [← Option.not_isSome, hreceiver]
      rfl
  | none =>
      rw [hfield] at hplace hreceiver
      obtain ⟨r, -, heq⟩ := Option.map_eq_some_iff.mp hplace
      obtain ⟨rfl, -⟩ := Prod.mk.inj heq
      rw [← Option.not_isSome, hreceiver]
      rfl

/-- The holder that is declared is the one that the body reaches; without one the body reaches no
variable. -/
theorem tied (h : parts args s body names owner? = .ok (m, names')) :
    (∀ holder, m.holder? = some holder → reaches m.body holder.name) ∧
      (m.holder? = none → ∀ x, ¬ reaches m.body x) := by
  obtain ⟨p, site, -, -, -, rfl⟩ := parts_eq_ok_iff.mp h
  rcases site with ⟨name, kind, cacheName⟩ | ⟨field⟩
  · refine ⟨fun holder hholder => ?_, fun hnone => by simp [made, Site.holder?] at hnone⟩
    obtain rfl := Option.some.inj hholder
    exact ⟨kind, cacheName, rfl⟩
  · refine ⟨fun holder hholder => by simp [made, Site.holder?] at hholder, fun _ x => ?_⟩
    exact not_reaches_field rfl

end Memoized

end Memoize
