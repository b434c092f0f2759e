import Memoize.Token

/-!
# Substituted fragments

In written text an invisible group is spelled `__none ( … )`. `hideFragments` turns the spelling
into the group; rendering is its inverse.
-/

namespace Memoize

namespace TokenTree

/-- The name that announces an invisible group in written text. -/
def fragmentName : String := "__none"

/-- Whether a tree is the name that announces an invisible group. -/
def announcesFragment : TokenTree → Bool
  | leaf t => t.word == .name fragmentName
  | group .. => false

mutual

/-- Turns the spelled fragments inside a tree into invisible groups. -/
def hideInside : TokenTree → TokenTree
  | leaf t => leaf t
  | group d s body => group d s (hideAll [] body)

/-- Turns the spelled fragments of a stream into invisible groups; `held` is the announcing name, if
it was just read. -/
def hideAll (held : List TokenTree) : List TokenTree → List TokenTree
  | [] => held
  | t :: rest =>
    match held, t with
    | _ :: _, group .parenthesis s body =>
      group .invisible s (hideAll [] body) :: hideAll [] rest
    | held, t =>
      if t.announcesFragment then held ++ hideAll [t] rest
      else held ++ (hideInside t :: hideAll [] rest)

end

/-- Turns every spelled fragment of a stream into an invisible group. -/
def hideFragments (ts : List TokenTree) : List TokenTree := hideAll [] ts

end TokenTree

end Memoize
