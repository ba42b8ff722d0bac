import CallGraph.Event
import CallGraph.Graph
import CallGraph.Signature

/-!
Collapsing call sites into the declarations they invoke.

A call site resolves to the first declaration with its signature, where declarations compete by
source position and then by id, and those without a position come first. What each call site
resolves to is planned once, before anything changes: declarations are never removed, so the plan
stays right. The callers of a resolved call site are then linked to its declaration and the call
site is removed; the links made this way are the highlighted edges.
-/

namespace CallGraph

/-- Whether the first declaration is preferred to the second: by position, where none comes
first, then by id. -/
def Node.preferred (a b : Node) : Bool :=
  match a.position, b.position with
  | none, some _ => true
  | some _, none => false
  | none, none => a.id ≤ b.id
  | some p, some q => p.lt q || p == q && a.id ≤ b.id

namespace Graph

/-- The declarations of a graph, the most preferred first. -/
def declarations (g : Graph) : List Node :=
  (g.nodes.filter Node.isDeclaration).mergeSort Node.preferred

/-- The declaration that a call site resolves to. -/
def target? (g : Graph) (call : Node) : Option Nat :=
  (g.declarations.find? (fun d => d.sameSignature call)).map Node.id

/-- What each call site resolves to, in the order of ids. -/
def plan (g : Graph) : List (Nat × Option Nat) :=
  let declarations := g.declarations
  (g.nodes.filter Node.isCallSite).map fun call =>
    (call.id, (declarations.find? (fun d => d.sameSignature call)).map Node.id)

end Graph

structure Outcome where
  /-- The edges made by linking callers to declarations. -/
  highlighted : EdgeSet := {}
  /-- How many call sites were replaced. -/
  collapsed : Nat := 0
  /-- How many call sites have no declaration. -/
  unmatched : Nat := 0
  deriving DecidableEq, Inhabited

/-- A graph in the middle of a collapsing pass: what was done so far and what was reported. -/
structure Collapsing where
  graph : Graph
  outcome : Outcome := {}
  events : List Event := []
  deriving Inhabited

namespace Collapsing

/-- Links one caller to a declaration and highlights the link. -/
def redirect (declaration : Nat) (c : Collapsing) (caller : Nat) : Except Error Collapsing := do
  let (graph, _) ← c.graph.addEdge caller declaration
  return { c with
    graph
    outcome := { c.outcome with
      highlighted := c.outcome.highlighted.insert ⟨caller, declaration⟩ } }

/-- Replaces a call site by its declaration: its callers, itself apart, are linked to the
declaration, then it is removed, and with it every highlighted edge that touches it. -/
def resolve (c : Collapsing) (call declaration : Nat) : Except Error Collapsing := do
  let callers ← c.graph.incoming call
  let c ← (callers.filter (· != call)).foldlM (redirect declaration) c
  let (graph, _) ← c.graph.removeNode call
  return {
    graph
    outcome := { c.outcome with
      highlighted := c.outcome.highlighted.filter (fun e => !e.touches call)
      collapsed := c.outcome.collapsed + 1 }
    events := c.events ++ [.callCollapsed call declaration] }

def step (c : Collapsing) : Nat × Option Nat → Except Error Collapsing
  | (call, some declaration) => c.resolve call declaration
  | (_, none) =>
    .ok { c with outcome := { c.outcome with unmatched := c.outcome.unmatched + 1 } }

end Collapsing

/-- Replaces every call site that resolves to a declaration. -/
def Graph.collapse (g : Graph) : Except Error Collapsing := do
  let c ← g.plan.foldlM Collapsing.step { graph := g }
  return { c with
    events := c.events ++
      [.collapsed c.outcome.collapsed c.outcome.unmatched c.outcome.highlighted.size] }

end CallGraph
