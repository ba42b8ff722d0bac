import CallGraph.Collapse

/-!
Cleaning and folding.

A clean graph has no edge from a node to itself and no node without an edge, and its highlighted
edges are edges of it. Folding a graph collapses its call sites and cleans the result.
-/

namespace CallGraph

/-- A graph that is ready to be drawn. -/
structure CleanGraph where
  graph : Graph
  highlighted : EdgeSet
  deriving DecidableEq, Inhabited

/-- The edges that were not made by collapsing. -/
def CleanGraph.plain (c : CleanGraph) : List Edge :=
  c.graph.edges.toList.filter (fun e => !c.highlighted.contains e)

structure Cleaned where
  clean : CleanGraph
  events : List Event
  deriving Inhabited

namespace Graph

def isolated (g : Graph) : List Nat :=
  let connected := g.incidentTo g.edges.toList
  g.ids.filter (fun i => !connected.contains i)

/-- Drops the loops, then every node that is left without an edge. -/
def clean (g : Graph) (highlighted : EdgeSet) : Except Error Cleaned := do
  let loops := g.edges.toList.filter Edge.isLoop
  let bare := g.removeEdges loops
  let isolated := bare.isolated
  let graph ← bare.removeNodes isolated
  return {
    clean := { graph, highlighted := highlighted.filter (fun e => graph.edges.contains e) }
    events := [.cleaned loops.length isolated.length] }

end Graph

/-- A folded graph: the clean graph, what collapsing did, and what was reported. -/
structure Folded where
  clean : CleanGraph
  outcome : Outcome
  events : List Event
  deriving Inhabited

/-- Collapses the call sites of a graph and cleans the result. -/
def Graph.fold (g : Graph) : Except Error Folded := do
  let collapsed ← g.collapse
  let cleaned ← collapsed.graph.clean collapsed.outcome.highlighted
  return {
    clean := cleaned.clean
    outcome := collapsed.outcome
    events := collapsed.events ++ cleaned.events }

end CallGraph
