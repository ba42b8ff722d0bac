import CallGraph.Event
import CallGraph.Graph
import CallGraph.Path
import CallGraph.Source.Grammar
import CallGraph.Source.Outline

/-!
From sources to the raw graph of their declarations and calls.

Every file has a node, and below it stand the entries of its outline. Nodes are numbered in the
order of the text; the one edge into an entry comes from its owner.

A file with syntax errors is read as far as possible. In strict mode it fails the whole extraction
instead; so does, in every mode, a file that is not a Rust source.
-/

namespace CallGraph

/-- What a graph builder returns: its events and a graph or an error. -/
structure Parsed where
  events : List Event
  result : Except Error Graph

namespace Source

mutual

/-- Adds an entry below its owner, and its members below it. -/
def Outline.plant (g : Graph) (owner : Nat) : Outline → Graph
  | .entry node members => Outline.plantAll ((g.addNode node).connect owner g.next) g.next members

/-- Adds entries below their owner, one after the other. -/
def Outline.plantAll (g : Graph) (owner : Nat) : List Outline → Graph
  | [] => g
  | o :: os => Outline.plantAll (Outline.plant g owner o) owner os

end

/-- Whether a path names a source that can be parsed. -/
def isSupported (p : Path) : Bool := p.extension? == some "rs"

def fileNode (index : UInt32) (path : Path) : Node :=
  { kind := .file
    name := path.fileName?.getD path.text
    description := path.text
    position := some ⟨index, 0, 1⟩ }

/-- Adds a file with its outline to a graph. -/
def addFile (g : Graph) (index : UInt32) (path : Path) (tree : Tree) : Graph :=
  Outline.plantAll (g.addNode (fileNode index path)) g.next (tree.fileOutline index)

def faultLine? (t : Tree) : Option Nat := t.firstFault.map fun found => found.place.line

/-- Extracts the files from the one at an index on, into a graph that holds those before. -/
def extractFrom (parse : String → Tree) (strict : Bool) (g : Graph) (index : Nat) :
    List SourceFile → List Event × Except Error Graph
  | [] => ([], .ok g)
  | f :: fs =>
    if !isSupported f.path then
      ([], .error (.parse (f.path.text ++ ": unsupported file type")))
    else
      let tree := parse f.content
      match faultLine? tree with
      | some line =>
        if strict then
          ([], .error (.parse (f.path.text ++ ":" ++ Nat.repr line ++ ": syntax error")))
        else
          let (events, result) :=
            extractFrom parse strict (addFile g index.toUInt32 f.path tree) (index + 1) fs
          (.recovered f.path.text line :: events, result)
      | none => extractFrom parse strict (addFile g index.toUInt32 f.path tree) (index + 1) fs

/-- The raw graph of some sources, with a parser for their texts. -/
def extractWith (parse : String → Tree) (strict : Bool) (files : List SourceFile) : Parsed :=
  let (events, result) := extractFrom parse strict Graph.empty 0 files
  match result with
  | .ok g => ⟨events ++ [.extracted g.nodeCount g.edgeCount files.length], .ok g⟩
  | .error e => ⟨events, .error e⟩

theorem extractWith_result (parse : String → Tree) (strict : Bool) (files : List SourceFile) :
    (extractWith parse strict files).result = (extractFrom parse strict Graph.empty 0 files).2 := by
  rw [extractWith]
  rcases extractFrom parse strict Graph.empty 0 files with ⟨events, result⟩
  cases result <;> rfl

/-- The raw graph of some sources. -/
def extract (strict : Bool) (files : List SourceFile) : Parsed := extractWith parse strict files

end Source

end CallGraph
