import Memoize.Syntax.Item
import Memoize.TypeRules

/-!
# Parameters

What a holder needs to know of a function: its parameters, under one name each, and the types of
these and of the result. `Parameters.extract` reads them off a signature and refuses functions that
cannot be cached.
-/

namespace Memoize

/-- A parameter: the name its value has in the memoized function, the pattern that takes it apart in
the body if it is not a plain name, and its resolved type. -/
structure Param where
  binding : Token
  pattern? : Option Pattern
  type : Phrase
  deriving Repr

/-- The pattern and the type of an input that is no receiver. -/
def Input.typed? : Input → Option (Pattern × Phrase)
  | receiver _ => none
  | typed _ pattern _ type => some (pattern, type)

/-- The patterns and types of the inputs of a signature that are no receivers. -/
def Signature.typed (s : Signature) : List (Pattern × Phrase) :=
  s.inputs.filterMap fun i => i.1.typed?

/-- The names of the inputs of a signature that are plain names. -/
def Signature.names (s : Signature) : List Token := s.typed.filterMap fun i => i.1.plain?

/-- What a holder needs to know of a function. The receiver is never part of the key. -/
structure Parameters where
  receiver? : Option Receiver
  params : List Param
  output : Phrase
  deriving Repr

namespace Parameters

/-- The name that stands for the parameter with a number if its pattern is not a plain name. -/
def generatedBinding (n : Nat) : Token := ⟨.name ("__recall_arg" ++ toString n), none⟩

/-- The type of a function without a written result. -/
def unit : Phrase := .group .parenthesis none []

/-- Refuses deferred, constant and generic functions. -/
def checkQualifiers (s : Signature) : Except (List Diagnostic) Unit :=
  match s.async?, s.const?, s.generics.params.find? (!·.isLifetime) with
  | some t, _, _ => .error [Refusal.asyncFunction.at_ [.leaf t]]
  | none, some t, _ => .error [Refusal.constFunction.at_ [.leaf t]]
  | none, none, some p => .error [Refusal.genericFunction.at_ p.phrase.tokens]
  | none, none, none => .ok ()

/-- The parameter with a number. -/
def paramOf (rules : TypeRules) (n : Nat) (pattern : Pattern) (type : Phrase) :
    Except (List Diagnostic) Param :=
  (rules.resolveParam type).map fun type =>
    match pattern.plain? with
    | some t => ⟨t, none, type⟩
    | none => ⟨generatedBinding n, some pattern, type⟩

/-- The parameters of a list of inputs, the first of which has the number `n`. -/
def paramsFrom (rules : TypeRules) (n : Nat) : List Input → Except (List Diagnostic) (List Param)
  | [] => .ok []
  | .receiver _ :: rest => paramsFrom rules n rest
  | .typed _ pattern _ type :: rest =>
    match paramOf rules n pattern type with
    | .error e => .error e
    | .ok p => (paramsFrom rules (n + 1) rest).map (p :: ·)

/-- The resolved type of the result. -/
def resultOf (rules : TypeRules) (s : Signature) : Except (List Diagnostic) Phrase :=
  match s.output? with
  | some (_, type) => rules.resolve type
  | none => .ok unit

/-- Reads the parameters off a signature. The first refusal counts: that of a qualifier, then of the
parameters in order, then of the result. -/
def extract (rules : TypeRules) (s : Signature) : Except (List Diagnostic) Parameters :=
  match checkQualifiers s with
  | .error e => .error e
  | .ok () =>
    match paramsFrom rules 0 (s.inputs.map (·.1)) with
    | .error e => .error e
    | .ok params =>
      (resultOf rules s).map fun output => ⟨s.receiver?, params, output⟩

/-- Whether there is a receiver and it is borrowed. -/
def hasBorrowedReceiver (p : Parameters) : Bool := p.receiver?.any Receiver.isBorrowed

/-- Inputs with the binding in the place of every pattern that is not a plain name. -/
def rebindFrom : List (Input × Option Token) → List Param → List (Input × Option Token)
  | [], _ => []
  | (.receiver r, comma) :: rest, params => (.receiver r, comma) :: rebindFrom rest params
  | (.typed attributes pattern colon type, comma) :: rest, p :: params =>
    let pattern : Pattern :=
      if p.pattern?.isSome then ⟨.word p.binding, some p.binding, [p.binding.name]⟩ else pattern
    (.typed attributes pattern colon type, comma) :: rebindFrom rest params
  | i :: rest, [] => i :: rebindFrom rest []

/-- The signature with the binding in the place of every pattern that is not a plain name. -/
def rebind (p : Parameters) (s : Signature) : Signature :=
  { s with inputs := rebindFrom s.inputs p.params }

end Parameters

end Memoize
