import Mathlib.Data.List.Forall2
import Mathlib.Data.Option.Basic
import Memoize.Proofs.Grammar.Hidden

/-!
# Likeness

Two values of a type are alike if no rule of the grammar tells them apart. Each type says for itself
what that means: truth values and numbers are alike if they are equal, streams if they differ in
hidden names only, and compound values if their parts are.

## Implementation notes

Being alike is a class, so that instance search finds it for values built from values that are
alike. Two values that are known to be alike form a `Pair`, from which the search can start.
-/

namespace Memoize

/-- What it means for two values of a type not to be told apart. -/
class Likeness (α : Type) where
  like : α → α → Prop

/-- Two values are alike. -/
class Like {α : Type} [Likeness α] (a b : α) : Prop where
  holds : Likeness.like a b

/-- Two values that are alike. -/
structure Pair (α : Type) [Likeness α] where
  left : α
  right : α
  like : Like left right

instance {α : Type} [Likeness α] (x : Pair α) : Like x.left x.right := x.like

/-! ### Types -/

namespace Likeness

instance : Likeness Unit := ⟨Eq⟩
instance : Likeness Bool := ⟨Eq⟩
instance : Likeness Nat := ⟨Eq⟩
instance : Likeness Span := ⟨Eq⟩
instance : Likeness Delimiter := ⟨Eq⟩
instance : Likeness String := ⟨fun _ _ => True⟩
instance : Likeness Fault := ⟨fun _ _ => True⟩
instance : Likeness Token := ⟨fun t u => t.word.Alike u.word⟩

instance {α : Type} [Likeness α] : Likeness (Option α) := ⟨Option.Rel fun a b => Like a b⟩
instance {α : Type} [Likeness α] : Likeness (List α) := ⟨List.Forall₂ fun a b => Like a b⟩

instance {α β : Type} [Likeness α] [Likeness β] : Likeness (α × β) :=
  ⟨fun x y => Like x.1 y.1 ∧ Like x.2 y.2⟩

instance {α β : Type} [Likeness α] [Likeness β] : Likeness (α ⊕ β) :=
  ⟨Sum.LiftRel (fun a b => Like a b) (fun a b => Like a b)⟩

instance : Likeness (List String) := ⟨fun _ _ => True⟩
instance : Likeness (List TokenTree) := ⟨TokenTree.Alike⟩
instance : Likeness Stream := ⟨fun s t => Like s.rest t.rest ∧ Like s.stray t.stray⟩

end Likeness

open Memoize.Parser TokenTree

namespace Like

variable {α β : Type} [Likeness α] [Likeness β]

/-! ### Plain values -/

instance (a : Unit) : Like a a := ⟨rfl⟩
instance (a : Bool) : Like a a := ⟨rfl⟩
instance (a : Nat) : Like a a := ⟨rfl⟩
instance (a : Delimiter) : Like a a := ⟨rfl⟩
instance (s : Span) : Like s s := ⟨rfl⟩
instance (t : Token) : Like t t := ⟨.same t.word⟩
instance (a b : String) : Like a b := ⟨trivial⟩
instance (as bs : List String) : Like as bs := ⟨trivial⟩
instance (a b : Fault) : Like a b := ⟨trivial⟩

instance [h : ∀ a : α, Like a a] : (o : Option α) → Like o o
  | some a => ⟨.some (h a)⟩
  | none => ⟨.none⟩

instance [h : ∀ a : α, Like a a] (as : List α) : Like as as :=
  ⟨List.forall₂_same.mpr fun a _ => h a⟩

instance [h : ∀ a : α, Like a a] [k : ∀ b : β, Like b b] (x : α × β) : Like x x := ⟨h x.1, k x.2⟩

instance (w : Word) (s s' : Option Span) : Like (Token.mk w s) (Token.mk w s') := ⟨.same w⟩

instance {m n k l : Nat} [h : Like m n] [h' : Like k l] : Like (m + k) (n + l) :=
  ⟨congrArg₂ (· + ·) h.holds h'.holds⟩

instance {m n k l : Nat} [h : Like m n] [h' : Like k l] : Like (m - k) (n - l) :=
  ⟨congrArg₂ (· - ·) h.holds h'.holds⟩

instance {d e f : Delimiter} [h : Like d e] : Like (d == f) (e == f) := ⟨congrArg (· == f) h.holds⟩

section Bool

variable {a b c d : Bool}

instance [h : Like a b] : Like (!a) (!b) := ⟨congrArg not h.holds⟩
instance [h : Like a b] [k : Like c d] : Like (a && c) (b && d) := ⟨congrArg₂ and h.holds k.holds⟩
instance [h : Like a b] [k : Like c d] : Like (a || c) (b || d) := ⟨congrArg₂ or h.holds k.holds⟩

instance {x y x' y' : α} [h : Like a b] [hx : Like x x'] [hy : Like y y'] :
    Like (if a = true then x else y) (if b = true then x' else y') := by
  obtain rfl : a = b := h.holds
  split <;> assumption

end Bool

/-! ### Options, lists, pairs and sums -/

instance : Like (none : Option α) none := ⟨.none⟩
instance {a b : α} [h : Like a b] : Like (some a) (some b) := ⟨.some h⟩

section Option

variable {o o' : Option α} [h : Like o o']

instance : Like o.isSome o'.isSome := by
  obtain ⟨_ | _⟩ := h <;> exact ⟨rfl⟩

instance : Like o.isNone o'.isNone := by
  obtain ⟨_ | _⟩ := h <;> exact ⟨rfl⟩

instance : Like o.toList o'.toList := by
  obtain ⟨h | _⟩ := h
  · exact ⟨.cons h .nil⟩
  · exact ⟨.nil⟩

instance {a b : α} [k : Like a b] : Like (o.getD a) (o'.getD b) := by
  obtain ⟨h | _⟩ := h
  · exact h
  · exact k

instance {f f' : Unit → Option α} [k : Like (f ()) (f' ())] :
    Like (o.orElse f) (o'.orElse f') := by
  obtain ⟨h | _⟩ := h
  · exact ⟨.some h⟩
  · exact k

instance {f f' : α → β} [k : ∀ x : Pair α, Like (f x.left) (f' x.right)] :
    Like (o.map f) (o'.map f') := by
  obtain ⟨h | _⟩ := h
  · exact ⟨.some (k ⟨_, _, h⟩)⟩
  · exact ⟨.none⟩

instance {f f' : α → Bool} [k : ∀ x : Pair α, Like (f x.left) (f' x.right)] :
    Like (o.any f) (o'.any f') := by
  obtain ⟨h | _⟩ := h
  · exact k ⟨_, _, h⟩
  · exact ⟨rfl⟩

end Option

instance : Like ([] : List α) [] := ⟨.nil⟩

instance {a b : α} {as bs : List α} [h : Like a b] [k : Like as bs] : Like (a :: as) (b :: bs) :=
  ⟨.cons h k.holds⟩

section List

variable {as bs cs ds : List α}

/-- Lists are alike if they are so one by one. -/
theorem of_forall₂ (h : List.Forall₂ (fun a b => Like a b) as bs) : Like as bs := ⟨h⟩

instance [h : Like as bs] [k : Like cs ds] : Like (as ++ cs) (bs ++ ds) :=
  ⟨List.rel_append h.holds k.holds⟩

instance {a b : α} [h : Like as bs] [k : Like a b] :
    Like (as.intersperse a) (bs.intersperse b) := by
  obtain ⟨h⟩ := h
  induction h with
  | nil => exact ⟨.nil⟩
  | cons h hs ih =>
    cases hs with
    | nil => exact ⟨.cons h .nil⟩
    | cons _ _ => exact ⟨.cons h (.cons k ih.holds)⟩

instance [h : Like as bs] : Like as.reverse bs.reverse := ⟨List.forall₂_reverse_iff.mpr h.holds⟩

instance {m n : Nat} [h : Like as bs] [k : Like m n] : Like (as.take m) (bs.take n) := by
  obtain rfl : m = n := k.holds
  exact ⟨List.forall₂_take m h.holds⟩

instance {m n : Nat} [h : Like as bs] [k : Like m n] : Like (as.drop m) (bs.drop n) := by
  obtain rfl : m = n := k.holds
  exact ⟨List.forall₂_drop m h.holds⟩

instance [h : Like as bs] : Like as.isEmpty bs.isEmpty := by
  obtain ⟨_ | _⟩ := h <;> exact ⟨rfl⟩

instance [h : Like as bs] : Like as.length bs.length := ⟨h.holds.length_eq⟩

instance {f f' : α → β} [h : Like as bs] [k : ∀ x : Pair α, Like (f x.left) (f' x.right)] :
    Like (as.map f) (bs.map f') :=
  ⟨List.rel_map (fun _ _ h => k ⟨_, _, h⟩) h.holds⟩

instance {f f' : α → List β} [h : Like as bs] [k : ∀ x : Pair α, Like (f x.left) (f' x.right)] :
    Like (as.flatMap f) (bs.flatMap f') :=
  ⟨List.rel_flatMap h.holds fun _ _ h => (k ⟨_, _, h⟩).holds⟩

instance {f f' : α → Bool} [h : Like as bs] [k : ∀ x : Pair α, Like (f x.left) (f' x.right)] :
    Like (as.any f) (bs.any f') := by
  obtain ⟨h⟩ := h
  induction h with
  | nil => exact ⟨rfl⟩
  | cons h _ ih =>
    simp only [List.any_cons]
    have := k ⟨_, _, h⟩
    infer_instance

instance {f f' : α → Bool} [h : Like as bs] [k : ∀ x : Pair α, Like (f x.left) (f' x.right)] :
    Like (as.all f) (bs.all f') := by
  obtain ⟨h⟩ := h
  induction h with
  | nil => exact ⟨rfl⟩
  | cons h _ ih =>
    simp only [List.all_cons]
    have := k ⟨_, _, h⟩
    infer_instance

instance {f f' : α → Bool} [h : Like as bs] [k : ∀ x : Pair α, Like (f x.left) (f' x.right)] :
    Like (as.filter f) (bs.filter f') := by
  obtain ⟨h⟩ := h
  induction h with
  | nil => exact ⟨.nil⟩
  | @cons a b _ _ h _ ih =>
    have hkeep : f a = f' b := (k ⟨_, _, h⟩).holds
    simp only [List.filter_cons, hkeep]
    split
    · exact ⟨.cons h ih.holds⟩
    · exact ih

instance [h : Like as bs] : Like as.getLast? bs.getLast? := by
  obtain ⟨h⟩ := h
  induction h with
  | nil => exact ⟨.none⟩
  | cons h hs ih =>
    cases hs with
    | nil => exact ⟨.some h⟩
    | cons _ _ => simpa only [List.getLast?_cons_cons] using ih

end List

instance {a c : α} {b d : β} [h : Like a c] [k : Like b d] : Like (a, b) (c, d) := ⟨h, k⟩
instance {x y : α × β} [h : Like x y] : Like x.1 y.1 := h.holds.1
instance {x y : α × β} [h : Like x y] : Like x.2 y.2 := h.holds.2

instance {a b : α} [h : Like a b] : Like (Sum.inl a : α ⊕ β) (Sum.inl b) := ⟨.inl h⟩
instance {a b : β} [h : Like a b] : Like (Sum.inr a : α ⊕ β) (Sum.inr b) := ⟨.inr h⟩

/-! ### Streams -/

section Stream

variable {ts us : List TokenTree} [h : Like ts us]

instance {s t : Stream} [h : Like s t] : Like s.rest t.rest := h.holds.1
instance {s t : Stream} [h : Like s t] : Like s.stray t.stray := h.holds.2

instance {o o' : Option Fault} [k : Like o o'] : Like (Stream.mk ts o) (Stream.mk us o') := ⟨h, k⟩

instance : Like ([] : List TokenTree) [] := ⟨.nil⟩
instance : Like (next ts) (next us) := ⟨h.holds.next⟩
instance : Like (visible ts) (visible us) := ⟨h.holds.visible_eq⟩

instance {m n : Nat} [k : Like m n] : Like (takeVisible m ts) (takeVisible n us) := by
  obtain rfl : m = n := k.holds
  exact ⟨h.holds.takeVisible m⟩

instance {d e : Delimiter} {p q : Option Span} [hd : Like d e] [hp : Like p q] :
    Like [group d p ts] [group e q us] := by
  obtain rfl : d = e := hd.holds
  obtain rfl : p = q := by
    obtain ⟨hp | _⟩ := hp
    · exact congrArg some hp.holds
    · rfl
  exact ⟨.group h.holds .nil⟩

instance : Like ts.isEmpty us.isEmpty := by
  obtain ⟨h⟩ := h
  cases h <;> exact ⟨rfl⟩

end Stream

end Like

end Memoize
