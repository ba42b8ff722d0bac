import CallGraph.Clean

/-!
The DOT text of a clean graph.

The text lists the highlighted edges, then the other edges, both ascending, then the nodes by id.
It depends on the graph alone, so it can be kept and used again.
-/

namespace CallGraph.Dot

/-- A text in which every occurrence of a character is replaced. -/
def replace (old : Char) (new : List Char) (cs : List Char) : List Char :=
  cs.flatMap (fun c => if c = old then new else [c])

/-- A label as it stands between quotes: backslashes, quotes and line ends are escaped. -/
def escape (cs : List Char) : List Char :=
  replace '\n' ['\\', 'n'] (replace '"' ['\\', '"'] (replace '\\' ['\\', '\\'] cs))

def escapeLabel (s : String) : String := String.ofList (escape s.toList)

def highlightColor : String := "red"

/-- The shape of a node: calls that are left point outside the sources. -/
def shape : Role → String
  | .declaration => "box"
  | .callSite => "ellipse"
  | .other => "folder"

def edgeStatement (e : Edge) : String :=
  "\"" ++ idText e.source ++ "\" -> \"" ++ idText e.target ++ "\""

def highlightedLine (e : Edge) : String :=
  "    " ++ edgeStatement e ++ " [color=\"" ++ highlightColor ++ "\"];"

def plainLine (e : Edge) : String := "    " ++ edgeStatement e ++ ";"

def nodeLine (n : Node) : String :=
  "    \"" ++ idText n.id ++ "\" [label=\"" ++ escapeLabel n.description ++ "\", shape=" ++
    shape n.role ++ "];"

def lines (c : CleanGraph) : List String :=
  ["digraph CallGraph \x7b", "    node [fontname=\"Helvetica\", fontsize=12];"] ++
    c.highlighted.toList.map highlightedLine ++ c.plain.map plainLine ++
    c.graph.nodes.map nodeLine ++ ["\x7d"]

def render (c : CleanGraph) : String := String.intercalate "\n" (lines c)

end CallGraph.Dot
