import CallGraph.Cache
import CallGraph.Clean

/-!
One-line texts that show a value with the names of its parts.
-/

namespace CallGraph.Inspect

/-- A record: its name and its named parts. -/
def record (name : String) (parts : List (String × String)) : String :=
  name ++ " \x7b " ++ String.intercalate ", " (parts.map fun p => p.1 ++ ": " ++ p.2) ++ " \x7d"

def list (items : List String) : String := "[" ++ String.intercalate ", " items ++ "]"

def set (items : List String) : String :=
  "\x7b" ++ String.intercalate ", " items ++ "\x7d"

/-- A value that may be missing. -/
def option : Option String → String
  | none => "None"
  | some s => "Some(" ++ s ++ ")"

def id (i : Nat) : String := "NodeId(" ++ Nat.repr i ++ ")"

def position (p : Position) : String :=
  record "SourcePosition" [("file", Nat.repr p.file.toNat), ("byte", Nat.repr p.byte.toNat),
    ("line", Nat.repr p.line.toNat)]

def texts (l : List String) : String := list (l.map Text.quote)

def node (n : Node) : String :=
  record "GraphNode" [("id", id n.id), ("kind", n.kind.text), ("name", Text.quote n.name),
    ("labels", texts n.labels), ("description", Text.quote n.description),
    ("position", option (n.position.map position))]

def edge (e : Edge) : String :=
  record "Edge" [("source", id e.source), ("target", id e.target)]

def signature (s : Signature) : String :=
  record "Signature" [("name", Text.quote s.name), ("labels", texts s.labels)]

/-- A graph, by its size. -/
def graph (g : Graph) : String :=
  record "Graph" [("node_count", Nat.repr g.nodeCount), ("edge_count", Nat.repr g.edgeCount)]

def cleanGraph (c : CleanGraph) : String :=
  record "CleanGraph" [("graph", graph c.graph), ("highlighted", set (c.highlighted.toList.map edge))]

/-- A cache, by its size and its file. -/
def cache (c : Cache) : String :=
  record "ResultCache" [("entries", Nat.repr c.entries.size),
    ("path", option (c.path.map fun p => Text.quote p.text))]

end CallGraph.Inspect
