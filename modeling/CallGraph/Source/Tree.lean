import CallGraph.Source.Token

/-!
Syntax trees of Rust sources.

A tree is lossless: its leaves, from left to right, are the tokens of the text, blanks and comments
included. So where a tree stands follows from the text before it, and no tree carries a position.
Trivia never comes first in a tree, so a tree starts at its first token.

A text that the grammar does not accept still has a tree. A leaf of kind `error` is a token that was
skipped, and a leaf of kind `missing`, with no text, is a token that should have been there.
-/

namespace CallGraph.Source

/-- What a tree is. Only the kinds that the outline of a file tells apart have names of their own;
`item`, `statement`, `expression`, `pattern` and `type` are everything else. -/
inductive Kind where
  | blank
  | comment
  /-- A keyword or punctuation. -/
  | token
  | identifier
  | literal
  | missing
  | error
  | file
  | module
  | implementation
  | trait
  | function
  | declarations
  | block
  | parameters
  | parameter
  /-- A receiver without a type, such as `&mut self`. -/
  | receiver
  | arguments
  | call
  /-- A path of more than one segment. -/
  | scoped
  /-- The access to a field or method. -/
  | field
  /-- A name with type arguments. -/
  | generic
  | attr
  /-- The tokens in the brackets of a macro or an attribute. -/
  | tokenTree
  | item
  | statement
  | expression
  | pattern
  | type
  deriving DecidableEq, Repr

/-- The part a tree plays in its parent. -/
inductive Slot where
  | none
  | name
  | body
  | type
  | trait
  | parameters
  | function
  | arguments
  | field
  deriving DecidableEq, Repr

inductive Tree where
  | leaf (kind : Kind) (slot : Slot) (text : String)
  | node (kind : Kind) (slot : Slot) (children : List Tree)

namespace Tree

def kind : Tree → Kind
  | leaf k _ _ => k
  | node k _ _ => k

def slot : Tree → Slot
  | leaf _ s _ => s
  | node _ s _ => s

/-- The tree in another part. -/
def withSlot (s : Slot) : Tree → Tree
  | leaf k _ t => leaf k s t
  | node k _ ts => node k s ts

def children : Tree → List Tree
  | leaf .. => []
  | node _ _ ts => ts

def child? (s : Slot) (t : Tree) : Option Tree := t.children.find? (fun c => c.slot == s)

/-- Whether the tree is a construct and not only a blank, a keyword or punctuation. -/
def isNamed (t : Tree) : Bool :=
  match t.kind with
  | .blank | .token | .missing => false
  | _ => true

mutual

def text : Tree → String
  | leaf _ _ s => s
  | node _ _ ts => texts ts

def texts : List Tree → String
  | [] => ""
  | t :: ts => text t ++ texts ts

end

/-- The text of the first child that plays a part, empty if there is none. -/
def textOf (s : Slot) (t : Tree) : String := ((t.child? s).map text).getD ""

end Tree

/-- A place in a text: the bytes before it, and its line, counted from one. -/
structure Place where
  byte : Nat
  line : Nat
  deriving DecidableEq, Repr

/-- Where a text starts. -/
def Place.start : Place := ⟨0, 1⟩

/-- The place after some text. Only a line feed starts a new line. -/
def Place.after (p : Place) (s : String) : Place :=
  ⟨p.byte + s.utf8ByteSize, p.line + s.toList.count '\n'⟩

namespace Tree

/-- Whether the tree itself stands for a fault of the text. -/
def isFault (t : Tree) : Bool := t.kind == .error || t.kind == .missing

mutual

/-- Whether a fault stands anywhere in the tree. -/
def hasFault : Tree → Bool
  | leaf k _ _ => k == .error || k == .missing
  | node k _ ts => k == .error || k == .missing || anyFault ts

/-- Whether a fault stands anywhere in trees in a row. -/
def anyFault : List Tree → Bool
  | [] => false
  | t :: ts => hasFault t || anyFault ts

end

/-- A tree within a tree: the numbers of the children that lead to it, where it starts, and what it
is. -/
structure Site where
  address : List Nat
  place : Place
  tree : Tree

mutual

/-- Searches a tree, which stands at an address and a place, for the first fault. Below a tree that
is not marked nothing is looked up. -/
def findFault (marked : Tree → Bool) (a : List Nat) (p : Place) : Tree → Option Site
  | leaf k s x => if (leaf k s x).isFault then some ⟨a, p, leaf k s x⟩ else none
  | node k s ts =>
    if (node k s ts).isFault then some ⟨a, p, node k s ts⟩
    else if marked (node k s ts) then findFaults marked a 0 p ts
    else none

/-- Searches trees in a row for the first fault, from the child with a number on. -/
def findFaults (marked : Tree → Bool) (a : List Nat) (i : Nat) (p : Place) :
    List Tree → Option Site
  | [] => none
  | t :: ts =>
    match findFault marked (a ++ [i]) p t with
    | some found => some found
    | none => findFaults marked a (i + 1) (p.after t.text) ts

end

/-- The first fault in a whole tree. Trees without faults are passed over. -/
def firstFault (t : Tree) : Option Site := t.findFault hasFault [] Place.start

end Tree

end CallGraph.Source
