import Memoize.Refusal
import Memoize.Syntax.Phrase

/-!
# Types that can be stored

A holder stores keys and values by name and without borrowing. `TypeRules.resolve` puts the concrete
type in the place of `Self` and refuses a type with an offence: an `impl` type, a hole, borrowed
data, or a `Self` that is left where none is allowed. The parameters and results of function types
are not looked into, since their lifetimes are not borrowed data.
-/

namespace Memoize

/-- How strictly types must resolve for a holder: the type that `Self` stands for, if it is known,
and whether a `Self` that is left is an offence. -/
structure TypeRules where
  self? : Option Phrase
  forbidSelf : Bool

namespace Phrase

/-- The offence of naming a lifetime other than `'static`. -/
def lifetimeOffence (t : Token) : List Diagnostic :=
  if t.word = .lifetime "static" then [] else [Refusal.borrowed.at_ [.leaf t]]

mutual

/-- The offences of a phrase, in the order in which it is read. -/
def offences (forbidSelf : Bool) : Phrase → List Diagnostic
  | word _ => []
  | raw _ => []
  | lifetime t => lifetimeOffence t
  | group _ _ parts => allOffences forbidSelf parts
  | seq parts => allOffences forbidSelf parts
  | named leading head rest =>
    (if forbidSelf && head.word == .name "Self" then
      [Refusal.selfType.at_ (named leading head rest).tokens] else []) ++
      allOffences forbidSelf rest
  | reference amp region mutable target =>
    (match region with
      | none => [Refusal.borrowed.at_ (reference amp region mutable target).tokens]
      | some t => lifetimeOffence t) ++ offences forbidSelf target
  | implTrait parts => [Refusal.implTrait.at_ (allTokens parts)]
  | hole t => [Refusal.hole.at_ [.leaf t]]
  | wrapped _ _ inner => offences forbidSelf inner
  | shielded _ => []
  | receiver shown implied => allOffences forbidSelf shown ++ offences forbidSelf implied
  | late clause between => offences forbidSelf clause ++ offences forbidSelf between
  | entry _ value _ => offences forbidSelf value
  | lifetimesFirst entries => allOffences forbidSelf entries

/-- The offences of phrases in a row. -/
def allOffences (forbidSelf : Bool) : List Phrase → List Diagnostic
  | [] => []
  | p :: rest => offences forbidSelf p ++ allOffences forbidSelf rest

end

end Phrase

namespace TypeRules

/-- The rules of a holder in an instance, and of types on their own: nothing replaces `Self`, and
nothing forbids it. -/
def permissive : TypeRules := ⟨none, false⟩

/-- A type with the concrete type in the place of `Self`, if it is known. -/
def substituted (rules : TypeRules) (type : Phrase) : Phrase :=
  match rules.self? with
  | some self => Phrase.substitute self type
  | none => type

/-- The type as a holder stores it, or its offences. -/
def resolve (rules : TypeRules) (type : Phrase) : Except (List Diagnostic) Phrase :=
  match (rules.substituted type).offences rules.forbidSelf with
  | [] => .ok (rules.substituted type)
  | offences => .error offences

/-- The type of a parameter as a holder stores it. A parameter may be a reference of any lifetime,
since the key holds an owned copy of what it refers to. -/
def resolveParam (rules : TypeRules) (type : Phrase) : Except (List Diagnostic) Phrase :=
  match type.ungroup with
  | .reference amp region mutable target =>
    (rules.resolve target).map fun target => .reference amp region mutable target
  | _ => rules.resolve type

end TypeRules

end Memoize
