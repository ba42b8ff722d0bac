import CallGraph.Node

/-!
Directed graphs in numbered slots.

Nodes and edges stand in slots whose numbers stay the same until what stands there is taken out. A
slot that has become free may be used again, so a number says nothing about when something was
added. Several edges may join the same two nodes. `SlotGraph` lists the operations, `Documented` what
they promise, and `Slots` is a graph that keeps the promises (see `slotGraph_documented`): it uses the
slot again that was freed last, and holds fewer than 2 ^ 32 nodes and edges.
-/

namespace CallGraph

/-- The operations of a directed graph in slots. Where there is `none`, an operation that adds
something ends the program. -/
structure SlotGraph where
  State : Type
  empty : State
  /-- Adds a node, and returns its slot. -/
  addNode : State → Node → Option (State × Nat)
  /-- Adds an edge between the nodes in two slots, and returns its own slot. -/
  addEdge : State → Nat → Nat → Option (State × Nat)
  /-- Takes the node out of a slot, with every edge that touches it. -/
  removeNode : State → Nat → State × Option Node
  /-- Takes the edge out of a slot, and tells whether there was one. -/
  removeEdge : State → Nat → State × Bool
  /-- The node in a slot. -/
  node? : State → Nat → Option Node
  /-- The slots of the two ends of the edge in a slot. -/
  ends? : State → Nat → Option (Nat × Nat)
  /-- The slot of an edge between the nodes in two slots. -/
  findEdge : State → Nat → Nat → Option Nat
  hasEdge : State → Nat → Nat → Bool
  /-- The slots that hold edges. -/
  edgeSlots : State → List Nat
  /-- The slots from which edges lead to a slot, one for each edge. -/
  sources : State → Nat → List Nat
  /-- The slots to which edges lead from a slot, one for each edge. -/
  targets : State → Nat → List Nat
  nodeCount : State → Nat
  edgeCount : State → Nat

/-- The greatest number of nodes, and of edges, in slots that 32-bit words number. The last word
numbers no slot. -/
def slotLimit : Nat := Nat.pow 2 32 - 1

/-- What the operations of a graph in slots promise. -/
structure SlotGraph.Documented (S : SlotGraph) : Prop where
  node?_empty : ∀ i, S.node? S.empty i = none
  ends?_empty : ∀ e, S.ends? S.empty e = none
  /-- A node can be added as long as there is room. -/
  addNode_room : ∀ s n, S.nodeCount s < slotLimit → (S.addNode s n).isSome = true
  /-- A node is added in a slot that was free, and nothing else changes. -/
  addNode : ∀ s n t i, S.addNode s n = some (t, i) → S.node? s i = none ∧
    (∀ j, S.node? t j = if j = i then some n else S.node? s j) ∧ ∀ e, S.ends? t e = S.ends? s e
  /-- An edge can be added between two nodes that are there as long as there is room. -/
  addEdge_room : ∀ s a b, (S.node? s a).isSome = true → (S.node? s b).isSome = true →
    S.edgeCount s < slotLimit → (S.addEdge s a b).isSome = true
  /-- An edge is added in a slot that was free, also if there is one between the same nodes, and
  nothing else changes. -/
  addEdge : ∀ s a b t e, S.addEdge s a b = some (t, e) → S.ends? s e = none ∧
    (∀ d, S.ends? t d = if d = e then some (a, b) else S.ends? s d) ∧
    ∀ i, S.node? t i = S.node? s i
  removeNode_free : ∀ s i, S.node? s i = none → S.removeNode s i = (s, none)
  /-- A node is taken out with the edges that touch it, and nothing else changes. -/
  removeNode : ∀ s i n, S.node? s i = some n → (S.removeNode s i).2 = some n ∧
    (∀ j, S.node? (S.removeNode s i).1 j = if j = i then none else S.node? s j) ∧
    ∀ e, S.ends? (S.removeNode s i).1 e = (S.ends? s e).filter fun p => p.1 != i && p.2 != i
  removeEdge : ∀ s e, (S.removeEdge s e).2 = (S.ends? s e).isSome ∧
    (∀ d, S.ends? (S.removeEdge s e).1 d = if d = e then none else S.ends? s d) ∧
    ∀ i, S.node? (S.removeEdge s e).1 i = S.node? s i
  findEdge_some : ∀ s a b e, S.findEdge s a b = some e → S.ends? s e = some (a, b)
  findEdge_none : ∀ s a b, S.findEdge s a b = none → ∀ e, S.ends? s e ≠ some (a, b)
  hasEdge : ∀ s a b, S.hasEdge s a b = true ↔ ∃ e, S.ends? s e = some (a, b)
  nodup_edgeSlots : ∀ s, (S.edgeSlots s).Nodup
  mem_edgeSlots : ∀ s e, e ∈ S.edgeSlots s ↔ (S.ends? s e).isSome = true
  sources : ∀ s i a, a ∈ S.sources s i ↔ ∃ e, S.ends? s e = some (a, i)
  targets : ∀ s i b, b ∈ S.targets s i ↔ ∃ e, S.ends? s e = some (i, b)
  nodeCount : ∀ s (l : List Nat), l.Nodup → (∀ i, i ∈ l ↔ (S.node? s i).isSome = true) →
    S.nodeCount s = l.length
  edgeCount : ∀ s, S.edgeCount s = (S.edgeSlots s).length

/-! ## Slots that are used again -/

theorem Slab.free_nil {α : Type} (i : Nat) :
    i ∈ ([] : List Nat) ↔ ([] : List (Option α))[i]? = some none := by simp

theorem Slab.nodup_nil : ([] : List Nat).Nodup := List.nodup_nil

/-- A row of slots. The free ones are listed, the one freed last first. -/
structure Slab (α : Type) where
  slots : List (Option α) := []
  free : List Nat := []
  free_iff : ∀ i, i ∈ free ↔ slots[i]? = some none := by exact Slab.free_nil
  free_nodup : free.Nodup := by exact Slab.nodup_nil

namespace Slab

variable {α : Type}

def get? (p : Slab α) (i : Nat) : Option α := p.slots[i]?.join

/-- The slots that are not free, ascending. -/
def used (p : Slab α) : List Nat :=
  (List.range p.slots.length).filter fun i => (p.get? i).isSome

/-- The number of slots that are not free. -/
def count (p : Slab α) : Nat := p.used.length

/-- Puts something in the slot `i`, which is the first of the free ones. -/
def reuse (p : Slab α) (a : α) (i : Nat) (rest : List Nat) (h : p.free = i :: rest) : Slab α where
  slots := p.slots.set i (some a)
  free := rest
  free_iff := by
    intro j
    have hj := p.free_iff j
    have hnodup := p.free_nodup
    rw [h] at hj hnodup
    rw [List.nodup_cons] at hnodup
    rw [List.getElem?_set]
    by_cases hij : i = j
    · subst hij
      simp only [if_true]
      exact ⟨fun hmem => absurd hmem hnodup.1, fun hx => by split at hx <;> simp at hx⟩
    · rw [if_neg hij, ← hj, List.mem_cons]
      exact ⟨Or.inr, fun hx => hx.resolve_left (Ne.symm hij)⟩
  free_nodup := by
    have hnodup := p.free_nodup
    rw [h] at hnodup
    exact (List.nodup_cons.1 hnodup).2

/-- Puts something in a new slot at the end, where no slot is free. -/
def extend (p : Slab α) (a : α) (h : p.free = []) : Slab α where
  slots := p.slots ++ [some a]
  free := []
  free_iff := by
    intro j
    have hj := p.free_iff j
    rw [h] at hj
    rw [List.getElem?_append, hj]
    by_cases hlt : j < p.slots.length
    · rw [if_pos hlt]
    · rw [if_neg hlt, List.getElem?_eq_none (Nat.le_of_not_lt hlt)]
      cases j - p.slots.length <;> simp
  free_nodup := List.nodup_nil

/-- Puts something in the slot that was freed last, or in a new one if none is free and there is
room. -/
def insert? (p : Slab α) (a : α) : Option (Slab α × Nat) :=
  match h : p.free with
  | i :: rest => some (p.reuse a i rest h, i)
  | [] => if p.slots.length < slotLimit then some (p.extend a h, p.slots.length) else none

/-- Frees a slot that is not free. -/
def release (p : Slab α) (i : Nat) (h : (p.get? i).isSome = true) : Slab α where
  slots := p.slots.set i none
  free := i :: p.free
  free_iff := by
    intro j
    have hlt : i < p.slots.length := by
      apply Nat.lt_of_not_le
      intro hle
      rw [get?, List.getElem?_eq_none hle] at h
      exact absurd h (by simp)
    rw [List.mem_cons, p.free_iff, List.getElem?_set]
    by_cases hij : i = j
    · simp [hij, hij ▸ hlt]
    · simp [hij, Ne.symm hij]
  free_nodup := by
    refine List.nodup_cons.2 ⟨?_, p.free_nodup⟩
    intro hmem
    rw [get?, (p.free_iff i).1 hmem] at h
    exact absurd h (by simp)

def erase (p : Slab α) (i : Nat) : Slab α :=
  if h : (p.get? i).isSome = true then p.release i h else p

def eraseAll (p : Slab α) (is : List Nat) : Slab α := is.foldl erase p

end Slab

/-! ## A graph in slots -/

/-- A directed graph: its nodes, and for each edge the slots of its ends. -/
structure Slots where
  nodes : Slab Node := {}
  edges : Slab (Nat × Nat) := {}

namespace Slots

/-- The slots of the edges whose ends satisfy a test. -/
def edgesWhere (s : Slots) (p : Nat × Nat → Bool) : List Nat :=
  s.edges.used.filter fun e => (s.edges.get? e).any p

def addEdge (s : Slots) (a b : Nat) : Option (Slots × Nat) :=
  if (s.nodes.get? a).isSome && (s.nodes.get? b).isSome then
    (s.edges.insert? (a, b)).map fun p => ({ s with edges := p.1 }, p.2)
  else none

/-- Takes a node out, with every edge that touches it. -/
def removeNode (s : Slots) (i : Nat) : Slots × Option Node :=
  match s.nodes.get? i with
  | none => (s, none)
  | some n =>
    (⟨s.nodes.erase i, s.edges.eraseAll (s.edgesWhere fun p => p.1 == i || p.2 == i)⟩, some n)

end Slots

/-- Graphs whose slots are used again. -/
def slotGraph : SlotGraph where
  State := Slots
  empty := {}
  addNode s n := (s.nodes.insert? n).map fun p => ({ s with nodes := p.1 }, p.2)
  addEdge := Slots.addEdge
  removeNode := Slots.removeNode
  removeEdge s e := ({ s with edges := s.edges.erase e }, (s.edges.get? e).isSome)
  node? s := s.nodes.get?
  ends? s := s.edges.get?
  findEdge s a b := (s.edgesWhere (· == (a, b))).head?
  hasEdge s a b := !(s.edgesWhere (· == (a, b))).isEmpty
  edgeSlots s := s.edges.used
  sources s i := (s.edgesWhere fun p => p.2 == i).filterMap fun e => (s.edges.get? e).map Prod.fst
  targets s i := (s.edgesWhere fun p => p.1 == i).filterMap fun e => (s.edges.get? e).map Prod.snd
  nodeCount s := s.nodes.count
  edgeCount s := s.edges.count

end CallGraph
