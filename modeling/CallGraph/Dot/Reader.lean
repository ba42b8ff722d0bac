import CallGraph.Dot

/-!
Reading DOT text.

The reader knows the part of the language in which clean graphs are drawn: one directed graph whose
statements set defaults for nodes, join two nodes or declare one node. It goes through the text
character by character and makes tokens of it. Blanks and line ends part tokens and mean nothing
else, so it is not told on which lines the statements stand.
-/

namespace CallGraph.Dot

inductive Token where
  | word (text : String)
  | quoted (text : String)
  | arrow
  | mark (char : Char)
  deriving DecidableEq, Repr

/-- What the reader is in the middle of. The characters read so far are reversed. -/
inductive Scan where
  | between
  | word (read : List Char)
  | dash
  | quoted (read : List Char)
  | escaped (read : List Char)
  deriving DecidableEq, Repr

/-- Whether a character parts tokens. -/
def isSpace (c : Char) : Bool := [' ', '\n', '\r', '\t'].contains c

/-- Whether a character is a token of its own. -/
def isMark (c : Char) : Bool := ['\x7b', '\x7d', '[', ']', '=', ',', ';'].contains c

/-- Whether a character may stand in a word. -/
def isWordChar (c : Char) : Bool := c.isAlphanum || c == '_'

/-- The character that an escape in a quoted text stands for. -/
def unescape? (c : Char) : Option Char :=
  if c == '\\' then some '\\' else if c == '"' then some '"' else if c == 'n' then some '\n' else none

namespace Scan

/-- The first character of something new: the tokens it completes, and what it begins. -/
def start (c : Char) : Option (List Token × Scan) :=
  if isSpace c then some ([], between)
  else if isMark c then some ([.mark c], between)
  else if c == '"' then some ([], quoted [])
  else if c == '-' then some ([], dash)
  else if isWordChar c then some ([], word [c])
  else none

/-- Reads one character: the tokens it completes, and what comes to be in the middle. -/
def advance : Scan → Char → Option (List Token × Scan)
  | between, c => start c
  | word read, c =>
    if isWordChar c then some ([], word (c :: read))
    else (start c).map fun p => (.word (String.ofList read.reverse) :: p.1, p.2)
  | dash, c => if c == '>' then some ([.arrow], between) else none
  | quoted read, c =>
    if c == '"' then some ([.quoted (String.ofList read.reverse)], between)
    else if c == '\\' then some ([], escaped read)
    else some ([], quoted (c :: read))
  | escaped read, c => (unescape? c).map fun d => ([], quoted (d :: read))

def run : Scan → List Char → Option (List Token × Scan)
  | s, [] => some ([], s)
  | s, c :: cs =>
    (s.advance c).bind fun p => (run p.2 cs).map fun q => (p.1 ++ q.1, q.2)

end Scan

/-- The tokens of a text, which ends between two tokens. -/
def tokens? (text : String) : Option (List Token) :=
  match Scan.between.run text.toList with
  | some (ts, .between) => some ts
  | _ => none

abbrev Attribute := String × String

inductive Statement where
  /-- Attributes of every node that follows. -/
  | defaults (attributes : List Attribute)
  /-- An edge, by the names of its ends. -/
  | edge (source target : String) (attributes : List Attribute)
  /-- A node, by its name. -/
  | node (name : String) (attributes : List Attribute)
  deriving DecidableEq, Repr

/-- The text of a token that can be a value. -/
def Token.value? : Token → Option String
  | .word text => some text
  | .quoted text => some text
  | _ => none

def attributes? : List Token → Option (List Attribute)
  | [.mark ']'] => some []
  | [.word name, .mark '=', value, .mark ']'] => value.value?.map fun v => [(name, v)]
  | .word name :: .mark '=' :: value :: .mark ',' :: rest =>
    value.value?.bind fun v => (attributes? rest).map ((name, v) :: ·)
  | _ => none

/-- Reads one statement, without the mark that ends it. -/
def statement? : List Token → Option Statement
  | [.quoted source, .arrow, .quoted target] => some (.edge source target [])
  | .quoted source :: .arrow :: .quoted target :: .mark '[' :: rest =>
    (attributes? rest).map (.edge source target)
  | .quoted name :: .mark '[' :: rest => (attributes? rest).map (.node name)
  | .word "node" :: .mark '[' :: rest => (attributes? rest).map .defaults
  | _ => none

/-- Cuts tokens into statements, up to the brace that closes them, which must come last. The first
argument holds the statement that is being read, reversed. -/
def sections (read : List Token) : List Token → Option (List (List Token))
  | [] => none
  | t :: ts =>
    if t = .mark ';' then (sections [] ts).map (read.reverse :: ·)
    else if t = .mark '\x7d' then if read.isEmpty && ts.isEmpty then some [] else none
    else sections (t :: read) ts

def statements? (text : String) : Option (List Statement) :=
  match tokens? text with
  | some (.word "digraph" :: .word _ :: .mark '\x7b' :: ts) => (sections [] ts).bind (List.mapM statement?)
  | _ => none

structure DrawnNode where
  id : Nat
  label : String
  shape : String
  deriving DecidableEq, Repr

/-- What the statements of a text say, each kind in order. -/
structure Drawing where
  highlighted : List Edge := []
  plain : List Edge := []
  nodes : List DrawnNode := []
  deriving DecidableEq, Repr

/-- The id that is written like this. -/
def id? (name : String) : Option Nat :=
  match name.toList with
  | 'n' :: digits =>
    if !digits.isEmpty && digits.all Char.isDigit then some (Nat.ofDigitChars 10 digits 0) else none
  | _ => none

/-- The edge between two ids that are written like this. -/
def edge? (source target : String) : Option Edge :=
  (id? source).bind fun u => (id? target).map fun v => ⟨u, v⟩

namespace Drawing

/-- A drawing with one more statement before the others. -/
def cons? (d : Drawing) : Statement → Option Drawing
  | .defaults _ => some d
  | .edge source target [] =>
    (edge? source target).map fun e => { d with plain := e :: d.plain }
  | .edge source target [("color", color)] =>
    if color = highlightColor then
      (edge? source target).map fun e => { d with highlighted := e :: d.highlighted }
    else none
  | .node name [("label", label), ("shape", shape)] =>
    (id? name).map fun i => { d with nodes := ⟨i, label, shape⟩ :: d.nodes }
  | _ => none

def ofStatements? : List Statement → Option Drawing
  | [] => some {}
  | s :: rest => (ofStatements? rest).bind fun d => d.cons? s

end Drawing

def read? (text : String) : Option Drawing := (statements? text).bind Drawing.ofStatements?

end CallGraph.Dot
