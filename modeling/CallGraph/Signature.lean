import CallGraph.Node

/-!
What part a node plays in folding, and when a call site and a declaration go together.

Only names and the ordered labels are compared, never types, so overloads with the same labels
cannot be told apart here.
-/

namespace CallGraph

/-- What part a node plays in folding. -/
inductive Role where
  | declaration
  | callSite
  | other
  deriving DecidableEq, Repr

def Role.text : Role → String
  | .declaration => "Declaration"
  | .callSite => "CallSite"
  | .other => "Other"

def NodeKind.role : NodeKind → Role
  | .function | .method | .associatedFunction => .declaration
  | .call | .methodCall => .callSite
  | .file | .module | .impl | .trait | .unknown => .other

/-- A name with ordered labels. -/
structure Signature where
  name : String
  labels : List String
  deriving DecidableEq, Repr

namespace Node

def role (n : Node) : Role := n.kind.role

/-- Whether the node declares a function. -/
def isDeclaration (n : Node) : Bool := n.role == .declaration

/-- Whether the node calls a function. -/
def isCallSite (n : Node) : Bool := n.role == .callSite

def signature (n : Node) : Signature := ⟨n.name, n.labels⟩

/-- Whether two nodes have the same name and the same labels in the same order. -/
def sameSignature (a b : Node) : Bool := a.signature == b.signature

end Node

end CallGraph
