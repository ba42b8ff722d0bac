import CallGraph.EdgeSet
import CallGraph.Error

/-!
Directed graphs whose nodes carry issued ids.

Ids are issued as 0, 1, 2, … and never reused: a graph remembers the next id, not only the ids in
use. Each edge is present at most once, and both its ends are nodes of the graph. These facts are
fields of `Graph`, so every operation keeps them.

Each operation is described by its effect on two views: `node?`, the node with an id, and the
members of `edges`.
-/

namespace CallGraph

/-! Without nodes and edges there is nothing to check. -/

theorem Graph.ascend_nil : (([] : List Node).map Node.id).Pairwise (· < ·) := List.Pairwise.nil

theorem Graph.issued_nil : ∀ i ∈ ([] : List Node).map Node.id, i < 0 := by
  intro i h; cases h

theorem Graph.present_nil : ∀ e ∈ ({} : EdgeSet),
    e.source ∈ ([] : List Node).map Node.id ∧ e.target ∈ ([] : List Node).map Node.id := by
  intro e h; cases h

/-- A directed graph. Nodes ascend by id, every id in use has been issued, and edges join nodes of
the graph. -/
structure Graph where
  nodes : List Node := []
  edges : EdgeSet := {}
  next : Nat := 0
  ids_ascend : (nodes.map Node.id).Pairwise (· < ·) := by exact Graph.ascend_nil
  ids_issued : ∀ i ∈ nodes.map Node.id, i < next := by exact Graph.issued_nil
  ends_present : ∀ e ∈ edges, e.source ∈ nodes.map Node.id ∧ e.target ∈ nodes.map Node.id :=
    by exact Graph.present_nil
  deriving DecidableEq

namespace Graph

instance : Inhabited Graph := ⟨{}⟩

def empty : Graph := {}

def ids (g : Graph) : List Nat := g.nodes.map Node.id

def node? (g : Graph) (id : Nat) : Option Node := g.nodes.find? (fun n => n.id == id)

def hasNode (g : Graph) (id : Nat) : Bool := decide (id ∈ g.ids)

def hasEdge (g : Graph) (source target : Nat) : Bool := g.edges.contains ⟨source, target⟩

def nodeCount (g : Graph) : Nat := g.nodes.length

def edgeCount (g : Graph) : Nat := g.edges.size

/-- Adds a node under the next id. -/
def addNode (g : Graph) (n : Node) : Graph where
  nodes := g.nodes ++ [{ n with id := g.next }]
  edges := g.edges
  next := g.next + 1
  ids_ascend := by
    rw [List.map_append, List.pairwise_append]
    refine ⟨g.ids_ascend, by simp, ?_⟩
    intro a ha b hb
    simp only [List.map_cons, List.map_nil, List.mem_singleton] at hb
    subst hb
    exact g.ids_issued a ha
  ids_issued := by
    intro i hi
    rw [List.map_append, List.mem_append] at hi
    rcases hi with hi | hi
    · exact Nat.lt_succ_of_lt (g.ids_issued i hi)
    · simp only [List.map_cons, List.map_nil, List.mem_singleton] at hi
      omega
  ends_present := by
    intro e he
    have h := g.ends_present e he
    rw [List.map_append]
    exact ⟨List.mem_append_left _ h.1, List.mem_append_left _ h.2⟩

/-- Adds an edge between two nodes of the graph. -/
def link (g : Graph) (e : Edge) (hs : e.source ∈ g.ids) (ht : e.target ∈ g.ids) : Graph where
  nodes := g.nodes
  edges := g.edges.insert e
  next := g.next
  ids_ascend := g.ids_ascend
  ids_issued := g.ids_issued
  ends_present := by
    intro d hd
    rcases EdgeSet.mem_insert.1 hd with rfl | hd
    · exact ⟨hs, ht⟩
    · exact g.ends_present d hd

/-- Adds an edge and tells whether it is new. The source is looked up first. -/
def addEdge (g : Graph) (source target : Nat) : Except Error (Graph × Bool) :=
  if hs : source ∈ g.ids then
    if ht : target ∈ g.ids then
      .ok (g.link ⟨source, target⟩ hs ht, !g.hasEdge source target)
    else .error (.notFound target)
  else .error (.notFound source)

def connect (g : Graph) (source target : Nat) : Graph :=
  match g.addEdge source target with
  | .ok (h, _) => h
  | .error _ => g

/-- The graph with only those edges that satisfy a test. -/
def filterEdges (g : Graph) (p : Edge → Bool) : Graph where
  nodes := g.nodes
  edges := g.edges.filter p
  next := g.next
  ids_ascend := g.ids_ascend
  ids_issued := g.ids_issued
  ends_present := fun e he => g.ends_present e (EdgeSet.mem_filter.1 he).1

def removeEdge (g : Graph) (source target : Nat) : Graph × Bool :=
  (g.filterEdges (fun e => decide (e ≠ ⟨source, target⟩)), g.hasEdge source target)

/-- Takes out every edge of a list, one after the other. -/
def removeEdges (g : Graph) (es : List Edge) : Graph :=
  es.foldl (fun h e => (h.removeEdge e.source e.target).1) g

/-- The part of the graph on the nodes whose ids satisfy a test: these nodes, and the edges that
join two of them. -/
def restrict (g : Graph) (p : Nat → Bool) : Graph where
  nodes := g.nodes.filter (fun n => p n.id)
  edges := g.edges.filter (fun e => p e.source && p e.target)
  next := g.next
  ids_ascend := g.ids_ascend.sublist (List.filter_sublist.map Node.id)
  ids_issued := fun i hi =>
    g.ids_issued i ((List.filter_sublist.map Node.id).subset hi)
  ends_present := by
    intro e he
    have h := EdgeSet.mem_filter.1 he
    have hp : p e.source = true ∧ p e.target = true := by simpa using h.2
    have keep : ∀ i, i ∈ g.nodes.map Node.id → p i = true →
        i ∈ (g.nodes.filter (fun n => p n.id)).map Node.id := by
      intro i hi hpi
      rcases List.mem_map.1 hi with ⟨n, hn, rfl⟩
      exact List.mem_map.2 ⟨n, List.mem_filter.2 ⟨hn, hpi⟩, rfl⟩
    exact ⟨keep _ (g.ends_present e h.1).1 hp.1, keep _ (g.ends_present e h.1).2 hp.2⟩

/-- Takes a node out, with every edge that touches it. -/
def removeNode (g : Graph) (id : Nat) : Except Error (Graph × Node) :=
  match g.node? id with
  | some n => .ok (g.restrict (fun i => i != id), n)
  | none => .error (.notFound id)

/-- Takes out every node of a list, one after the other. The first that is missing ends it. -/
def removeNodes (g : Graph) (ids : List Nat) : Except Error Graph :=
  ids.foldlM (fun h i => do return (← h.removeNode i).1) g

/-- The node with this id, or why there is none. -/
def getNode (g : Graph) (id : Nat) : Except Error Node :=
  match g.node? id with
  | some n => .ok n
  | none => .error (.notFound id)

/-- The sources of the edges into a node, ascending. -/
def callers (g : Graph) (id : Nat) : List Nat :=
  (g.edges.toList.filter (fun e => e.target == id)).map Edge.source

/-- The targets of the edges out of a node, ascending. -/
def callees (g : Graph) (id : Nat) : List Nat :=
  (g.edges.toList.filter (fun e => e.source == id)).map Edge.target

/-- The sources of the edges into a node of the graph. -/
def incoming (g : Graph) (id : Nat) : Except Error (List Nat) :=
  if g.hasNode id then .ok (g.callers id) else .error (.notFound id)

/-- The targets of the edges out of a node of the graph. -/
def outgoing (g : Graph) (id : Nat) : Except Error (List Nat) :=
  if g.hasNode id then .ok (g.callees id) else .error (.notFound id)

/-- The ids of the nodes that are an end of one of the given edges, ascending. -/
def incidentTo (g : Graph) (es : List Edge) : List Nat :=
  g.ids.filter (fun i => es.any (fun e => e.touches i))

end Graph

end CallGraph
