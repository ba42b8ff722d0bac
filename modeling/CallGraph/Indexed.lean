import CallGraph.Interface
import CallGraph.Slots

/-!
A graph held in slots and found by ids.

Nodes and edges stand in slots, and an index leads from the id of a node to its slot. Ids are issued
once, slots are used again, so the index and the slots have to change together. Whatever the index
leads to is looked up as if it might be missing: `node` and `removeNode` then report that the id is
not found, and `edges` and the neighbours of a node end the program.
-/

namespace CallGraph

/-! ## The index -/

theorem IdMap.sorted_nil : ([] : List (Nat × Nat)).Pairwise (fun a b => a.1 < b.1) :=
  List.Pairwise.nil

/-- A finite map from ids to slots, held as the ascending list of its entries. -/
structure IdMap where
  toList : List (Nat × Nat) := []
  sorted : toList.Pairwise (fun a b => a.1 < b.1) := by exact IdMap.sorted_nil
  deriving DecidableEq

namespace IdMap

def get? (m : IdMap) (id : Nat) : Option Nat := (m.toList.find? (fun e => e.1 == id)).map Prod.snd

def keys (m : IdMap) : List Nat := m.toList.map Prod.fst

/-- The slots, in the order of their ids. -/
def values (m : IdMap) : List Nat := m.toList.map Prod.snd

/-- The place of an id in an ascending list; the slot it had is replaced. -/
def insertInto (id slot : Nat) : List (Nat × Nat) → List (Nat × Nat)
  | [] => [(id, slot)]
  | e :: es =>
    if id < e.1 then (id, slot) :: e :: es
    else if e.1 < id then e :: insertInto id slot es
    else (id, slot) :: es

theorem mem_insertInto {id slot : Nat} {l : List (Nat × Nat)} {x : Nat × Nat}
    (h : l.Pairwise (fun a b => a.1 < b.1)) :
    x ∈ insertInto id slot l ↔ x = (id, slot) ∨ x ∈ l ∧ x.1 ≠ id := by
  induction l with
  | nil => simp [insertInto]
  | cons e es ih =>
    rw [List.pairwise_cons] at h
    have hrest := ih h.2
    unfold insertInto
    split
    · next hlt =>
      have hne : ∀ y ∈ e :: es, y.1 ≠ id := by
        intro y hy
        rcases List.mem_cons.1 hy with rfl | hy
        · omega
        · have := h.1 y hy
          omega
      rw [List.mem_cons]
      exact ⟨fun hx => hx.imp_right fun hx => ⟨hx, hne x hx⟩, fun hx => hx.imp_right And.left⟩
    · next hge =>
      split
      · next hlt =>
        rw [List.mem_cons, hrest, List.mem_cons]
        constructor
        · intro hx
          rcases hx with rfl | rfl | hx
          · exact Or.inr ⟨Or.inl rfl, by omega⟩
          · exact Or.inl rfl
          · exact Or.inr ⟨Or.inr hx.1, hx.2⟩
        · intro hx
          rcases hx with rfl | ⟨rfl | hx, hne⟩
          · exact Or.inr (Or.inl rfl)
          · exact Or.inl rfl
          · exact Or.inr (Or.inr ⟨hx, hne⟩)
      · next hle =>
        have heq : e.1 = id := by omega
        rw [List.mem_cons, List.mem_cons]
        constructor
        · intro hx
          rcases hx with rfl | hx
          · exact Or.inl rfl
          · have := h.1 x hx
            exact Or.inr ⟨Or.inr hx, by omega⟩
        · intro hx
          rcases hx with rfl | ⟨rfl | hx, hne⟩
          · exact Or.inl rfl
          · exact absurd heq hne
          · exact Or.inr hx

theorem sorted_insertInto {id slot : Nat} {l : List (Nat × Nat)}
    (h : l.Pairwise (fun a b => a.1 < b.1)) :
    (insertInto id slot l).Pairwise (fun a b => a.1 < b.1) := by
  induction l with
  | nil => simp [insertInto]
  | cons e es ih =>
    have h' := List.pairwise_cons.1 h
    unfold insertInto
    split
    · next hlt =>
      refine List.pairwise_cons.2 ⟨?_, h⟩
      intro x hx
      rcases List.mem_cons.1 hx with rfl | hx
      · exact hlt
      · exact Nat.lt_trans hlt (h'.1 x hx)
    · next hge =>
      split
      · next hlt =>
        refine List.pairwise_cons.2 ⟨?_, ih h'.2⟩
        intro x hx
        rcases (mem_insertInto h'.2).1 hx with rfl | hx
        · exact hlt
        · exact h'.1 x hx.1
      · next hle =>
        refine List.pairwise_cons.2 ⟨?_, h'.2⟩
        intro x hx
        have := h'.1 x hx
        show id < x.1
        omega

def insert (m : IdMap) (id slot : Nat) : IdMap :=
  ⟨insertInto id slot m.toList, sorted_insertInto m.sorted⟩

def erase (m : IdMap) (id : Nat) : IdMap :=
  ⟨m.toList.filter (fun e => e.1 != id), m.sorted.sublist List.filter_sublist⟩

end IdMap

/-- A list without those entries that repeat the one before them. -/
def dropRepeats : List Nat → List Nat
  | a :: b :: l => if a = b then dropRepeats (b :: l) else a :: dropRepeats (b :: l)
  | l => l

/-- The numbers of a list, ascending and each once. -/
def ascending (l : List Nat) : List Nat := dropRepeats (l.mergeSort (fun a b => decide (a ≤ b)))

/-! ## Graphs -/

/-- A graph: its slots, where each node stands, and the next id. -/
structure Indexed (S : SlotGraph) where
  inner : S.State
  index : IdMap
  next : Nat

namespace Indexed

variable {S : SlotGraph}

def empty (S : SlotGraph) : Indexed S := ⟨S.empty, {}, 0⟩

/-- The slot of an id, or why there is none. -/
def slotOf (x : Indexed S) (id : Nat) : Except Error Nat :=
  match x.index.get? id with
  | some slot => .ok slot
  | none => .error (.notFound id)

def addNode (x : Indexed S) (n : Node) : Option (Indexed S × Reply) :=
  (S.addNode x.inner { n with id := x.next }).map fun p =>
    (⟨p.1, x.index.insert x.next p.2, x.next + 1⟩, .issued x.next)

/-- Adds an edge and tells whether it is new. The source is looked up first. -/
def addEdge (x : Indexed S) (source target : Nat) : Option (Indexed S × Reply) :=
  match x.slotOf source with
  | .error e => some (x, .failed e)
  | .ok a =>
    match x.slotOf target with
    | .error e => some (x, .failed e)
    | .ok b =>
      if S.hasEdge x.inner a b then some (x, .flag false)
      else (S.addEdge x.inner a b).map fun p => ({ x with inner := p.1 }, .flag true)

/-- Takes an edge out and tells whether it was there. -/
def removeEdge (x : Indexed S) (source target : Nat) : Indexed S × Reply :=
  match x.index.get? source, x.index.get? target with
  | some a, some b =>
    match S.findEdge x.inner a b with
    | some e => ({ x with inner := (S.removeEdge x.inner e).1 }, .flag (S.removeEdge x.inner e).2)
    | none => (x, .flag false)
  | _, _ => (x, .flag false)

/-- Takes a node out, with every edge that touches it. The id leaves the index first. -/
def removeNode (x : Indexed S) (id : Nat) : Indexed S × Reply :=
  match x.index.get? id with
  | none => (x, .failed (.notFound id))
  | some slot =>
    let gone := S.removeNode x.inner slot
    let y : Indexed S := { x with inner := gone.1, index := x.index.erase id }
    match gone.2 with
    | some n => (y, .removed n)
    | none => (y, .failed (.notFound id))

def call (x : Indexed S) : Call → Option (Indexed S × Reply)
  | .addNode n => x.addNode n
  | .addEdge u v => x.addEdge u v
  | .removeEdge u v => some (x.removeEdge u v)
  | .removeNode id => some (x.removeNode id)

/-- Answers some calls, and lists each with its reply. -/
def replay (x : Indexed S) (calls : List Call) : Option (Indexed S × List (Call × Reply)) :=
  calls.foldlM (fun p c => (p.1.call c).map fun q => (q.1, p.2 ++ [(c, q.2)])) (x, [])

/-! ## What can be observed -/

def node (x : Indexed S) (id : Nat) : Except Error Node :=
  match x.slotOf id with
  | .error e => .error e
  | .ok slot =>
    match S.node? x.inner slot with
    | some n => .ok n
    | none => .error (.notFound id)

def hasNode (x : Indexed S) (id : Nat) : Bool := (x.index.get? id).isSome

def hasEdge (x : Indexed S) (source target : Nat) : Bool :=
  match x.index.get? source, x.index.get? target with
  | some a, some b => S.hasEdge x.inner a b
  | _, _ => false

def idAt (x : Indexed S) (slot : Nat) : Option Nat := (S.node? x.inner slot).map Node.id

def edgeAt (x : Indexed S) (ends : Nat × Nat) : Option Edge :=
  (x.idAt ends.1).bind fun u => (x.idAt ends.2).map fun v => ⟨u, v⟩

/-- The edges, ascending. -/
def edges (x : Indexed S) : Option (List Edge) :=
  (((S.edgeSlots x.inner).filterMap (S.ends? x.inner)).mapM x.edgeAt).map fun es =>
    es.mergeSort (fun a b => decide (¬ b < a))

/-- The ids of the nodes in some slots around the slot of a node, ascending and each once. -/
def neighbours (x : Indexed S) (around : S.State → Nat → List Nat) (id : Nat) :
    Option (Except Error (List Nat)) :=
  match x.slotOf id with
  | .error e => some (.error e)
  | .ok slot => ((around x.inner slot).mapM x.idAt).map fun ids => .ok (ascending ids)

/-- The ids of the nodes that are an end of one of the given edges, ascending. -/
def incidentTo (x : Indexed S) (es : List Edge) : List Nat :=
  ascending ((es.flatMap fun e => [e.source, e.target]).filter x.hasNode)

/-- All that can be observed of a graph. -/
def view (x : Indexed S) : View where
  node := x.node
  hasNode := x.hasNode
  hasEdge := x.hasEdge
  nodeCount := S.nodeCount x.inner
  edgeCount := S.edgeCount x.inner
  ids := x.index.keys
  nodes := x.index.values.filterMap (S.node? x.inner)
  edges := x.edges
  incoming := x.neighbours S.sources
  outgoing := x.neighbours S.targets
  incidentTo := x.incidentTo

end Indexed

end CallGraph
