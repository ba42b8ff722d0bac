import CallGraph.Node
import CallGraph.Source.Tree
import CallGraph.Text.Blank

/-!
The outline of a source: its containers, functions and calls, and what belongs to what.

An outline is a forest. Below a container stand the members of its body, and below a function what
its body declares and calls. A call has nothing below it: calls among its callee and arguments come
after it and belong to the same owner. Nothing is looked up in the tokens of macros, nor in the head
of a container or function.
-/

namespace CallGraph.Source

/-- An entry of an outline with the entries that it owns. -/
inductive Outline where
  | entry (node : Node) (members : List Outline)

/-- The position of a place in a file. -/
def Place.position (p : Place) (file : UInt32) : Position :=
  ⟨file, p.byte.toUInt32, p.line.toUInt32⟩

namespace Tree

/-- Whether a tree in a list of parameters or arguments stands for one of them. -/
def isPositional (t : Tree) : Bool :=
  t.isNamed && t.kind != .comment && t.kind != .attr && t.kind != .receiver

/-- One empty label for each parameter or argument in a list. -/
def positionalLabels (list : Option Tree) : List String :=
  ((list.map children).getD []).filter isPositional |>.map (fun _ => "")

def compactText (t : Tree) : String := Text.compact t.text

def containerTexts (t : Tree) : String × String :=
  match t.kind with
  | .implementation =>
    let type := t.textOf .type
    let name := match t.child? .trait with
      | some trait => trait.text ++ " for " ++ type
      | none => type
    (name, "impl " ++ name)
  | .trait => (t.textOf .name, "trait " ++ t.textOf .name)
  | _ => (t.textOf .name, "mod " ++ t.textOf .name)

def containerNode (kind : NodeKind) (t : Tree) (position : Position) : Node :=
  { kind, name := t.containerTexts.1, description := t.containerTexts.2, position := some position }

/-- The node of a function. In the body of a type it is a method if it has a receiver, and an
associated function otherwise. -/
def functionNode (inType : Bool) (t : Tree) (position : Position) : Node :=
  let parameters := t.child? .parameters
  let hasReceiver := ((parameters.map children).getD []).any (fun c => c.kind == .receiver)
  { kind := if !inType then .function else if hasReceiver then .method else .associatedFunction
    name := t.textOf .name
    labels := positionalLabels parameters
    description := "fn " ++ t.textOf .name ++ (parameters.map compactText).getD ""
    position := some position }

/-- The name that a callee resolves by, and whether the call is one of a method. Type arguments are
removed first. -/
def callee : Tree → String × NodeKind
  | leaf .identifier _ s => (s, .call)
  | node .scoped s ts => ((node .scoped s ts).textOf .name, .call)
  | node .field s ts => ((node .field s ts).textOf .field, .methodCall)
  | node .generic _ (t :: _) => callee t
  | t => (t.compactText, .call)

def callNode (t : Tree) (position : Position) : Node :=
  let function := t.child? .function
  let (name, kind) := (function.map callee).getD ("", .call)
  let labels := positionalLabels (t.child? .arguments)
  { kind, name, labels
    description := (function.map compactText).getD "" ++
      (if labels.isEmpty then "()" else "(..)")
    position := some position }

mutual

/-- The outline of a tree that stands at a place. `inType` tells whether it is a member of the body
of a type. -/
def outline (file : UInt32) (inType : Bool) (p : Place) : Tree → List Outline
  | leaf .. => []
  | node k s ts =>
    match k with
    | .module =>
      [.entry (containerNode .module (node k s ts) (p.position file)) (bodyOutline file false p ts)]
    | .implementation =>
      [.entry (containerNode .impl (node k s ts) (p.position file)) (bodyOutline file true p ts)]
    | .trait =>
      [.entry (containerNode .trait (node k s ts) (p.position file)) (bodyOutline file true p ts)]
    | .function =>
      [.entry (functionNode inType (node k s ts) (p.position file)) (functionOutline file p ts)]
    | .call => .entry (callNode (node k s ts) (p.position file)) [] :: outlines file inType p ts
    | .tokenTree => []
    | _ => outlines file inType p ts

def outlines (file : UInt32) (inType : Bool) (p : Place) : List Tree → List Outline
  | [] => []
  | t :: ts =>
    (if t.isNamed then outline file inType p t else []) ++
      outlines file inType (p.after t.text) ts

/-- The outline of what is in the body among the children of a container. -/
def bodyOutline (file : UInt32) (inType : Bool) (p : Place) : List Tree → List Outline
  | [] => []
  | t :: ts =>
    if t.slot == .body then
      match t with
      | leaf .. => []
      | node _ _ us => outlines file inType p us
    else bodyOutline file inType (p.after t.text) ts

/-- The outline of the body among the children of a function. -/
def functionOutline (file : UInt32) (p : Place) : List Tree → List Outline
  | [] => []
  | t :: ts =>
    if t.slot == .body then outline file false p t else functionOutline file (p.after t.text) ts

end

def fileOutline (file : UInt32) (t : Tree) : List Outline :=
  outlines file false Place.start t.children

end Tree

end CallGraph.Source
