import CallGraph.Json.Record
import CallGraph.Json.Writer
import CallGraph.Node

/-!
The JSON forms of nodes, edges, positions, kinds and ids.

Ids are 64-bit words and the parts of a position 32-bit words. A kind is written as its name; it
may also be read from an object whose one member has this name and is null.
-/

namespace CallGraph

namespace Json

/-- The first number that is no 64-bit word. -/
def wordBound64 : Nat := Nat.pow 2 64

/-- The first number that is no 32-bit word. -/
def wordBound32 : Nat := Nat.pow 2 32

def readId? (v : Value) : Option Nat := natBelow? wordBound64 v

def readWord? (v : Value) : Option UInt32 := (natBelow? wordBound32 v).map Nat.toUInt32

def readKind? : Value → Option NodeKind
  | .text s => NodeKind.ofText? s
  | .object [(some s, .null)] => NodeKind.ofText? s
  | _ => none

def positionFields : List String := ["file", "byte", "line"]

def readPosition? (v : Value) : Option Position :=
  match fields? positionFields v with
  | some [some file, some byte, some line] => do
    return ⟨← readWord? file, ← readWord? byte, ← readWord? line⟩
  | _ => none

def edgeFields : List String := ["source", "target"]

def readEdge? (v : Value) : Option Edge :=
  match fields? edgeFields v with
  | some [some source, some target] => do return ⟨← readId? source, ← readId? target⟩
  | _ => none

def nodeFields : List String := ["id", "kind", "name", "labels", "description", "position"]

/-- The node in a value. Only its position may be missing. -/
def readNode? (v : Value) : Option Node :=
  match fields? nodeFields v with
  | some [some id, some kind, some name, some labels, some description, position] => do
    return {
      id := ← readId? id
      kind := ← readKind? kind
      name := ← text? name
      labels := ← list? text? labels
      description := ← text? description
      position := ← optional? readPosition? position }
  | _ => none

def writeKind (k : NodeKind) : List Char := writeText k.text

def writeWord (w : UInt32) : List Char := writeNat w.toNat

def writePosition (p : Position) : List Char :=
  writeObject (positionFields.zip [writeWord p.file, writeWord p.byte, writeWord p.line])

def writeEdge (e : Edge) : List Char :=
  writeObject (edgeFields.zip [writeNat e.source, writeNat e.target])

def writeNode (n : Node) : List Char :=
  writeObject (nodeFields.zip [writeNat n.id, writeKind n.kind, writeText n.name,
    writeArray (n.labels.map writeText), writeText n.description,
    (n.position.map writePosition).getD writeNull])

end Json

end CallGraph
