import CallGraph.Toml.Scalar

/-!
Reading TOML documents.

A document is read line by line. The state is what the lines so far have built, and the path of the
table that is open.
-/

namespace CallGraph.Toml

/-- How deep arrays and inline tables may nest, and how many keys a path may have. -/
def depthLimit : Nat := 79

/-- Skips blanks, line ends and comments, as between the items of an array. -/
def skipVoid (inComment : Bool) : List Char → Option (List Char)
  | [] => some []
  | '\r' :: '\n' :: cs => skipVoid false cs
  | c :: cs =>
    if c == '\n' then skipVoid false cs
    else if inComment then if isCommentChar c then skipVoid true cs else none
    else if isBlank c then skipVoid false cs
    else if c == '#' then skipVoid true cs
    else some (c :: cs)

/-- Takes the end of a line off the front, with blanks and a comment before it. -/
def endLine? (cs : List Char) : Option (List Char) :=
  let rest := match skipBlanks cs with
    | '#' :: ds => ds.dropWhile isCommentChar
    | ds => ds
  match rest with
  | [] => some []
  | rest => newline? rest

/-- Whether a character may stand in a key without quotes. -/
def isKeyChar (c : Char) : Bool := c.isAlphanum || c == '_' || c == '-'

def readKey? : Reader String
  | '"' :: cs => (readBasic cs).map fun p => (String.ofList p.1, p.2)
  | '\'' :: cs => (readLiteral cs).map fun p => (String.ofList p.1, p.2)
  | cs =>
    match cs.takeWhile isKeyChar with
    | [] => none
    | name => some (String.ofList name, cs.dropWhile isKeyChar)

def readKeys? : Nat → Reader (List String)
  | 0, _ => none
  | n + 1, cs =>
    match readKey? (skipBlanks cs) with
    | none => none
    | some (key, rest) =>
      match skipBlanks rest with
      | '.' :: rest => (readKeys? n rest).map fun p => (key :: p.1, p.2)
      | rest => some ([key], rest)

def readPath? (cs : List Char) : Option ((List String × String) × List Char) :=
  match readKeys? depthLimit cs with
  | some (keys, rest) => keys.getLast?.map fun last => ((keys.dropLast, last), rest)
  | none => none

mutual

/-- Reads a value. The first argument bounds the number of steps, the second the nesting. -/
def readItem? : Nat → Nat → Reader Item
  | 0, _, _ => none
  | n + 1, depth, cs =>
    match cs with
    | '[' :: rest =>
      match depth with
      | 0 => none
      | d + 1 =>
        match skipVoid false rest with
        | some (']' :: rest) => some (.array [], rest)
        | some rest => (readItems? n d rest).map fun p => (.array p.1, p.2)
        | none => none
    | '\x7b' :: rest =>
      match depth with
      | 0 => none
      | d + 1 =>
        match skipBlanks rest with
        | '\x7d' :: rest => some (.table .inline [], rest)
        | rest => (readPairs? n d [] rest).map fun p => (.table .inline p.1, p.2)
    | _ => readScalar? cs

/-- Reads the items of an array up to its bracket. A comma may stand after the last. -/
def readItems? : Nat → Nat → Reader (List Item)
  | 0, _, _ => none
  | n + 1, depth, cs =>
    match readItem? n depth cs with
    | none => none
    | some (item, rest) =>
      match skipVoid false rest with
      | some (']' :: rest) => some ([item], rest)
      | some (',' :: rest) =>
        match skipVoid false rest with
        | some (']' :: rest) => some ([item], rest)
        | some rest => (readItems? n depth rest).map fun p => (item :: p.1, p.2)
        | none => none
      | _ => none

/-- Reads the pairs of an inline table up to its brace, after those before. -/
def readPairs? : Nat → Nat → Members → Reader Members
  | 0, _, _, _ => none
  | n + 1, depth, before, cs =>
    match readPath? cs with
    | some ((path, key), '=' :: rest) =>
      match readItem? n depth (skipBlanks rest) with
      | none => none
      | some (item, rest) =>
        match before.assign key item path with
        | none => none
        | some members =>
          match skipBlanks rest with
          | '\x7d' :: rest => some (members, rest)
          | ',' :: rest => readPairs? n depth members rest
          | _ => none
    | _ => none

end

structure Document where
  members : Members := []
  /-- The path of the table that is open. -/
  header : List String := []

/-- Reads the header of a table after its first bracket. -/
def readHeader? (d : Document) (cs : List Char) : Option (Document × List Char) := do
  let (double, cs) := match cs with
    | '[' :: ds => (true, ds)
    | _ => (false, cs)
  let ((path, key), rest) ← readPath? cs
  let rest ← expect ']' rest
  let rest ← if double then expect ']' rest else some rest
  let rest ← endLine? rest
  let change := if double then Members.openTables key else Members.openTable key
  let members ← d.members.enter change path
  return (⟨members, path ++ [key]⟩, rest)

/-- Reads a line that gives a key a value. -/
def readPair? (d : Document) (cs : List Char) : Option (Document × List Char) := do
  let ((path, key), rest) ← readPath? cs
  let rest ← expect '=' rest
  let (item, rest) ← readItem? (2 * rest.length + 2) depthLimit (skipBlanks rest)
  let rest ← endLine? rest
  let members ← d.members.enter (Members.assign key item path) d.header
  return ({ d with members }, rest)

/-- Reads the lines of a document. The first argument bounds their number. -/
def readLines? : Nat → Document → List Char → Option Document
  | 0, _, _ => none
  | n + 1, d, cs =>
    match skipBlanks cs with
    | [] => some d
    | c :: rest =>
      match endLine? (c :: rest) with
      | some rest => readLines? n d rest
      | none =>
        match if c == '[' then readHeader? d rest else readPair? d (c :: rest) with
        | some (d, rest) => readLines? n d rest
        | none => none

/-- Reads a document. A byte order mark at its start means nothing. -/
def read? (text : String) : Option Members :=
  let cs := match text.toList with
    | '\ufeff' :: cs => cs
    | cs => cs
  (readLines? (cs.length + 1) {} cs).map Document.members

end CallGraph.Toml
