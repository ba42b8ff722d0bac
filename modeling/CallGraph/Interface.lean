import CallGraph.Graph

/-!
A graph as its users see it.

Users change a graph by four calls and get a reply to each. What they can observe is a `View`. Two
ways to hold a graph are the same to them if they give the same replies and the same views.
-/

namespace CallGraph

inductive Call where
  | addNode (node : Node)
  | addEdge (source target : Nat)
  | removeEdge (source target : Nat)
  | removeNode (id : Nat)
  deriving DecidableEq, Repr

namespace Call

def addsNode : Call → Bool
  | addNode _ => true
  | _ => false

def addsEdge : Call → Bool
  | addEdge _ _ => true
  | _ => false

end Call

inductive Reply where
  /-- The id of the new node. -/
  | issued (id : Nat)
  /-- Whether the edge is new, or was there. -/
  | flag (value : Bool)
  /-- The node that was taken out. -/
  | removed (node : Node)
  | failed (error : Error)
  deriving DecidableEq, Repr

/-- Whether a reply reports a change. -/
def Reply.changed : Reply → Bool
  | issued _ => true
  | flag value => value
  | removed _ => true
  | failed _ => false

/-- The id that a reply reports as new. -/
def Reply.issued? : Reply → Option Nat
  | issued id => some id
  | _ => none

/-- All that can be observed of a graph. Where there is `none`, the observation ends the program. -/
structure View where
  node : Nat → Except Error Node
  hasNode : Nat → Bool
  hasEdge : Nat → Nat → Bool
  nodeCount : Nat
  edgeCount : Nat
  ids : List Nat
  nodes : List Node
  edges : Option (List Edge)
  incoming : Nat → Option (Except Error (List Nat))
  outgoing : Nat → Option (Except Error (List Nat))
  incidentTo : List Edge → List Nat

/-- What a call replies where this is observed, and where this is the next id. -/
def Call.reply (v : View) (next : Nat) : Call → Reply
  | addNode _ => .issued next
  | addEdge u v' =>
    if !v.hasNode u then .failed (.notFound u)
    else if !v.hasNode v' then .failed (.notFound v')
    else .flag (!v.hasEdge u v')
  | removeEdge u v' => .flag (v.hasEdge u v')
  | removeNode id =>
    match v.node id with
    | .ok n => .removed n
    | .error e => .failed e

namespace Graph

/-- Answers a call. A call that fails changes nothing. -/
def call (g : Graph) : Call → Graph × Reply
  | .addNode n => (g.addNode n, .issued g.next)
  | .addEdge u v =>
    match g.addEdge u v with
    | .ok (h, new) => (h, .flag new)
    | .error e => (g, .failed e)
  | .removeEdge u v => ((g.removeEdge u v).1, .flag (g.removeEdge u v).2)
  | .removeNode id =>
    match g.removeNode id with
    | .ok (h, n) => (h, .removed n)
    | .error e => (g, .failed e)

/-- Answers some calls, and lists each with its reply. -/
def replay (g : Graph) (calls : List Call) : Graph × List (Call × Reply) :=
  calls.foldl (fun p c => ((p.1.call c).1, p.2 ++ [(c, (p.1.call c).2)])) (g, [])

def view (g : Graph) : View where
  node := g.getNode
  hasNode := g.hasNode
  hasEdge := g.hasEdge
  nodeCount := g.nodeCount
  edgeCount := g.edgeCount
  ids := g.ids
  nodes := g.nodes
  edges := some g.edges.toList
  incoming id := some (g.incoming id)
  outgoing id := some (g.outgoing id)
  incidentTo := g.incidentTo

end Graph

end CallGraph
