import Mathlib.Data.List.Basic
import Memoize.Syntax.Phrase

/-!
# Places in a phrase

A place leads from a phrase to a node in it: it lists the numbers of the parts on the way, and parts
are counted in the order of the text. The order of places is therefore that of the text, a phrase
before its parts. `Phrase.nodes` lists the nodes in the order in which they are read, which is that
of the text but for `where` clauses: these are read before what they are written after
(`Phrase.nodes_pairwise`). What holds of all phrases is shown by `Phrase.induction_parts`, from the
parts to the phrase.

## Implementation notes

The lifetime of a reference is a part of it, and so is the type that a receiver implies, although
neither is a phrase that is printed on its own.
-/

namespace Memoize

namespace Phrase

/-! ### Parts -/

/-- The parts of a phrase in the order of the text. -/
def parts : Phrase → List Phrase
  | word _ | raw _ | lifetime _ | hole _ => []
  | group _ _ ps | seq ps | implTrait ps | shielded ps | lifetimesFirst ps => ps
  | named _ _ rest => rest
  | reference _ region _ target => region.toList.map lifetime ++ [target]
  | wrapped _ _ inner => [inner]
  | receiver shown implied => shown ++ [implied]
  | late clause between => [between, clause]
  | entry _ value _ => [value]

/-- The parts of a phrase with their numbers, in the order in which they are read. -/
def reading : Phrase → List (Phrase × Nat)
  | late clause between => [(clause, 1), (between, 0)]
  | p => p.parts.zipIdx

/-- What is read are the parts. -/
theorem mem_reading_iff {p q : Phrase} {i : Nat} :
    (q, i) ∈ p.reading ↔ p.parts[i]? = some q := by
  unfold reading
  split
  · rename_i clause between
    rcases i with _ | _ | i <;> simp [parts, eq_comm]
  · exact List.mem_zipIdx_iff_getElem?

/-- A part is smaller than the phrase. -/
theorem sizeOf_lt_of_mem_parts {p q : Phrase} (h : q ∈ p.parts) : sizeOf q < sizeOf p := by
  cases p with
  | word _ | raw _ | lifetime _ | hole _ => cases h
  | group _ _ ps | seq ps | implTrait ps | shielded ps | lifetimesFirst ps | named _ _ ps =>
      have hlt : sizeOf q < sizeOf ps := List.sizeOf_lt_of_mem h
      simp only [group.sizeOf_spec, seq.sizeOf_spec, implTrait.sizeOf_spec, shielded.sizeOf_spec,
        lifetimesFirst.sizeOf_spec, named.sizeOf_spec]
      omega
  | wrapped _ _ inner | entry _ inner _ =>
      obtain rfl := List.mem_singleton.mp h
      simp only [wrapped.sizeOf_spec, entry.sizeOf_spec]
      omega
  | reference amp region mutable target =>
      simp only [parts, List.mem_append, List.mem_map, List.mem_singleton] at h
      rcases h with ⟨t, ht, rfl⟩ | rfl
      · obtain rfl : region = some t := by simpa using ht
        simp only [reference.sizeOf_spec, lifetime.sizeOf_spec, Option.some.sizeOf_spec]
        omega
      · simp only [reference.sizeOf_spec]
        omega
  | receiver shown implied =>
      simp only [receiver.sizeOf_spec]
      rcases List.mem_append.mp h with h | h
      · have hlt : sizeOf q < sizeOf shown := List.sizeOf_lt_of_mem h
        omega
      · obtain rfl := List.mem_singleton.mp h
        omega
  | late clause between =>
      simp only [parts, List.mem_cons, List.not_mem_nil, or_false] at h
      simp only [late.sizeOf_spec]
      rcases h with rfl | rfl <;> omega

/-- What holds of a phrase if it holds of its parts, holds of every phrase. -/
@[elab_as_elim]
theorem induction_parts {motive : Phrase → Prop}
    (step : ∀ p, (∀ q ∈ p.parts, motive q) → motive p) (p : Phrase) : motive p :=
  step p fun q _ => induction_parts step q
termination_by sizeOf p
decreasing_by
  rename_i hq
  exact sizeOf_lt_of_mem_parts hq

/-! ### Nodes -/

/-- The phrase at a place. -/
def node? : Phrase → List Nat → Option Phrase
  | p, [] => some p
  | p, i :: place => p.parts[i]?.bind fun q => q.node? place

@[simp] theorem node?_nil (p : Phrase) : p.node? [] = some p := rfl

/-- The node at a place is one of the part that the place leads to. -/
theorem node?_cons_eq_some_iff {p node : Phrase} {i : Nat} {place : List Nat} :
    p.node? (i :: place) = some node ↔ ∃ q, p.parts[i]? = some q ∧ q.node? place = some node := by
  rw [node?, Option.bind_eq_some_iff]

/-- Nodes of a part as nodes of the phrase that it is the part with a number of. -/
def inPart (i : Nat) (ns : List (List Nat × Phrase)) : List (List Nat × Phrase) :=
  ns.map fun n => (i :: n.1, n.2)

mutual

/-- The nodes of a phrase with their places, in the order in which they are read. -/
def nodes : Phrase → List (List Nat × Phrase)
  | word t => [([], word t)]
  | raw ts => [([], raw ts)]
  | lifetime t => [([], lifetime t)]
  | hole t => [([], hole t)]
  | group d s ps => ([], group d s ps) :: nodesFrom 0 ps
  | seq ps => ([], seq ps) :: nodesFrom 0 ps
  | implTrait ps => ([], implTrait ps) :: nodesFrom 0 ps
  | shielded ps => ([], shielded ps) :: nodesFrom 0 ps
  | lifetimesFirst ps => ([], lifetimesFirst ps) :: nodesFrom 0 ps
  | named leading head rest => ([], named leading head rest) :: nodesFrom 0 rest
  | reference amp region mutable target =>
    ([], reference amp region mutable target) ::
      match region with
      | none => inPart 0 (nodes target)
      | some t => ([0], lifetime t) :: inPart 1 (nodes target)
  | wrapped d s inner => ([], wrapped d s inner) :: inPart 0 (nodes inner)
  | receiver shown implied =>
    ([], receiver shown implied) :: (nodesFrom 0 shown ++ inPart shown.length (nodes implied))
  | late clause between =>
    ([], late clause between) :: (inPart 1 (nodes clause) ++ inPart 0 (nodes between))
  | entry l value comma => ([], entry l value comma) :: inPart 0 (nodes value)

/-- The nodes of phrases in a row, the first of which is the part with a number. -/
def nodesFrom (i : Nat) : List Phrase → List (List Nat × Phrase)
  | [] => []
  | p :: rest => inPart i (nodes p) ++ nodesFrom (i + 1) rest

end

/-- The nodes of a row are those of its phrases. -/
theorem nodesFrom_eq (i : Nat) (ps : List Phrase) :
    nodesFrom i ps = (ps.zipIdx i).flatMap fun a => inPart a.2 (nodes a.1) := by
  induction ps generalizing i with
  | nil => simp [nodesFrom]
  | cons p ps ih => simp [nodesFrom, ih]

/-- The nodes of a phrase are the phrase and those of its parts. -/
theorem nodes_eq (p : Phrase) :
    p.nodes = ([], p) :: p.reading.flatMap fun a => inPart a.2 (nodes a.1) := by
  cases p with
  | reference amp region mutable target =>
      cases region <;> simp [nodes, reading, parts, inPart]
  | receiver shown implied =>
      simp [nodes, reading, parts, nodesFrom_eq, List.zipIdx_append]
  | _ => simp [nodes, reading, parts, nodesFrom_eq]

/-- The nodes with their places are the nodes at places. -/
theorem mem_nodes_iff {p node : Phrase} {place : List Nat} :
    (place, node) ∈ p.nodes ↔ p.node? place = some node := by
  induction p using induction_parts generalizing place node with
  | step p ih =>
      rw [nodes_eq, List.mem_cons, List.mem_flatMap]
      cases place with
      | nil => simp [inPart, eq_comm]
      | cons i place =>
          rw [node?_cons_eq_some_iff]
          simp only [Prod.mk.injEq, List.cons_ne_nil, false_and, false_or, inPart, List.mem_map,
            List.cons.injEq, Prod.exists]
          constructor
          · rintro ⟨q, j, hq, place', node', hnode, ⟨rfl, rfl⟩, rfl⟩
            have hpart := mem_reading_iff.mp hq
            exact ⟨q, hpart, (ih q (List.mem_of_getElem? hpart)).mp hnode⟩
          · rintro ⟨q, hpart, hnode⟩
            exact ⟨q, i, mem_reading_iff.mpr hpart, place, node,
              (ih q (List.mem_of_getElem? hpart)).mpr hnode, ⟨rfl, rfl⟩, rfl⟩

/-! ### Properties of all nodes -/

/-- All nodes of a phrase have a property, at their places. -/
def Everywhere (P : List Nat → Phrase → Prop) (p : Phrase) : Prop :=
  ∀ place node, p.node? place = some node → P place node

/-- Whether all nodes have a property is found out by listing them. -/
instance (P : List Nat → Phrase → Prop) [∀ place node, Decidable (P place node)] (p : Phrase) :
    Decidable (p.Everywhere P) :=
  decidable_of_iff (∀ n ∈ p.nodes, P n.1 n.2)
    ⟨fun h place node hnode => h (place, node) (mem_nodes_iff.mpr hnode),
      fun h n hn => h n.1 n.2 (mem_nodes_iff.mp hn)⟩

/-- All nodes have a property if the phrase has it and all nodes of its parts have it. -/
theorem everywhere_iff {P : List Nat → Phrase → Prop} {p : Phrase} :
    p.Everywhere P ↔
      P [] p ∧ ∀ (i : Nat) (q : Phrase), p.parts[i]? = some q →
        q.Everywhere fun place => P (i :: place) := by
  constructor
  · intro h
    refine ⟨h [] p rfl, fun i q hq place node hnode => h (i :: place) node ?_⟩
    exact node?_cons_eq_some_iff.mpr ⟨q, hq, hnode⟩
  · rintro ⟨hself, hparts⟩ place node hnode
    cases place with
    | nil =>
        obtain rfl := Option.some.inj hnode
        exact hself
    | cons i place =>
        obtain ⟨q, hq, hnode⟩ := node?_cons_eq_some_iff.mp hnode
        exact hparts i q hq place node hnode

/-! ### The order of reading -/

/-- A place lies in a clause that is read before what it is written after, and another place lies in
the latter. -/
def ClauseFirst (p : Phrase) (a b : List Nat) : Prop :=
  ∃ place clause between, p.node? place = some (late clause between) ∧
    place ++ [1] <+: a ∧ place ++ [0] <+: b

/-- A place is read before another one: it comes before it in the text, unless one of the two lies
in a clause that is read before the other. -/
def ReadBefore (p : Phrase) (a b : List Nat) : Prop :=
  p.ClauseFirst a b ∨ a < b ∧ ¬ p.ClauseFirst b a

/-- Whether a clause comes first does not depend on what is around it. -/
theorem clauseFirst_cons_iff {p q : Phrase} {i : Nat} (hq : p.parts[i]? = some q)
    {a b : List Nat} : p.ClauseFirst (i :: a) (i :: b) ↔ q.ClauseFirst a b := by
  constructor
  · rintro ⟨place, clause, between, hnode, ha, hb⟩
    cases place with
    | nil =>
        obtain ⟨rfl, -⟩ := List.cons_prefix_cons.mp ha
        obtain ⟨hzero, -⟩ := List.cons_prefix_cons.mp hb
        cases hzero
    | cons j place =>
        obtain ⟨rfl, hrest⟩ := List.cons_prefix_cons.mp ha
        obtain ⟨q', hq', hnode⟩ := node?_cons_eq_some_iff.mp hnode
        obtain rfl := Option.some.inj (hq.symm.trans hq')
        exact ⟨place, clause, between, hnode, hrest, (List.cons_prefix_cons.mp hb).2⟩
  · rintro ⟨place, clause, between, hnode, ha, hb⟩
    refine ⟨i :: place, clause, between, node?_cons_eq_some_iff.mpr ⟨q, hq, hnode⟩, ?_, ?_⟩
    · exact List.cons_prefix_cons.mpr ⟨rfl, ha⟩
    · exact List.cons_prefix_cons.mpr ⟨rfl, hb⟩

/-- Nodes of one part are read in the order of the part. -/
theorem ReadBefore.cons {p q : Phrase} {i : Nat} (hq : p.parts[i]? = some q) {a b : List Nat}
    (h : q.ReadBefore a b) : p.ReadBefore (i :: a) (i :: b) := by
  unfold ReadBefore at h ⊢
  rw [clauseFirst_cons_iff hq, clauseFirst_cons_iff hq]
  refine h.imp_right (And.imp_left fun hlt => ?_)
  exact List.cons_lt_cons_iff.mpr (Or.inr ⟨rfl, hlt⟩)

end Phrase

end Memoize
