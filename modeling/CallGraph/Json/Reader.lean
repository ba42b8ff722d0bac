import CallGraph.Text.Hex

/-!
Reading JSON text.

A reader takes the characters of one value off the front of a text and returns the rest. What is
read is a `Value`. Only natural numbers keep their value, since no record of this library holds any
other; `number` stands for the rest. A string that escapes one half of a surrogate pair is a valid
JSON string without a text; it is `garbled`, and a member with such a name has none.
-/

namespace CallGraph.Json

/-- A JSON value. Members of objects keep their order, and names may repeat. -/
inductive Value where
  | null
  | bool (value : Bool)
  | natural (value : Nat)
  | number
  | text (value : String)
  | garbled
  | array (items : List Value)
  | object (members : List (Option String × Value))

/-- Whether a character may stand between tokens. -/
def isSpace (c : Char) : Bool := c == ' ' || c == '\n' || c == '\t' || c == '\r'

/-- The text from the first token on. -/
def skipSpaces (cs : List Char) : List Char := cs.dropWhile isSpace

/-- The character that a one-letter escape stands for. -/
def shortEscape? (c : Char) : Option Char :=
  match c with
  | '"' => some '"'
  | '\\' => some '\\'
  | '/' => some '/'
  | 'b' => some '\x08'
  | 'f' => some '\x0c'
  | 'n' => some '\n'
  | 'r' => some '\r'
  | 't' => some '\t'
  | _ => none

/-- Whether a code is the first half of a surrogate pair. -/
def isHighHalf (n : Nat) : Bool := 0xd800 ≤ n && n < 0xdc00

/-- Whether a code is the second half of a surrogate pair. -/
def isLowHalf (n : Nat) : Bool := 0xdc00 ≤ n && n < 0xe000

/-- What a string reader returns: the characters, unless they are garbled, and the rest. -/
abbrev StringRead := Option (Option (List Char) × List Char)

def StringRead.cons (c : Char) (r : StringRead) : StringRead :=
  r.map fun p => (p.1.map (c :: ·), p.2)

def StringRead.garble (r : StringRead) : StringRead := r.map fun p => (none, p.2)

/-- A string that was read after the first half of a pair, if there is one, that stays alone. -/
def StringRead.after (half : Option Nat) (r : StringRead) : StringRead :=
  if half.isSome then r.garble else r

/-- The character that a surrogate pair stands for. -/
def pairChar (high low : Nat) : Char :=
  Char.ofNat (0x10000 + (high - 0xd800) * 0x400 + (low - 0xdc00))

/-- Reads the rest of a string, its closing quote included. `half` is the first half of a pair if it
was read just before. -/
def readStringFrom (half : Option Nat) : List Char → StringRead
  | [] => none
  | '"' :: cs => StringRead.after half (some (some [], cs))
  | '\\' :: 'u' :: a :: b :: c :: d :: cs =>
    match Text.hexNumber? [a, b, c, d] with
    | none => none
    | some n =>
      if isHighHalf n then (readStringFrom (some n) cs).after half
      else if isLowHalf n then
        match half with
        | some m => (readStringFrom none cs).cons (pairChar m n)
        | none => (readStringFrom none cs).garble
      else ((readStringFrom none cs).cons (Char.ofNat n)).after half
  | '\\' :: e :: cs =>
    match shortEscape? e with
    | some c => ((readStringFrom none cs).cons c).after half
    | none => none
  | c :: cs =>
    if c.toNat < 0x20 then none else ((readStringFrom none cs).cons c).after half

def readString (cs : List Char) : StringRead := readStringFrom none cs

/-- The digits at the front of a text, and the rest. -/
def spanDigits (cs : List Char) : List Char × List Char :=
  (cs.takeWhile Char.isDigit, cs.dropWhile Char.isDigit)

/-- The number that decimal digits stand for. -/
def digitsValue (ds : List Char) : Nat :=
  ds.foldl (fun n d => n * 10 + (d.toNat - '0'.toNat)) 0

/-- Reads the fraction of a number, if there is one, and tells whether there is. -/
def readFraction : List Char → Option (Bool × List Char)
  | '.' :: cs =>
    match spanDigits cs with
    | ([], _) => none
    | (_, rest) => some (true, rest)
  | cs => some (false, cs)

/-- Reads the exponent of a number, if there is one, and tells whether there is. -/
def readExponent : List Char → Option (Bool × List Char)
  | e :: cs =>
    if e == 'e' || e == 'E' then
      let ds := match cs with
        | '+' :: ds => ds
        | '-' :: ds => ds
        | ds => ds
      match spanDigits ds with
      | ([], _) => none
      | (_, rest) => some (true, rest)
    else some (false, e :: cs)
  | [] => some (false, [])

/-- Reads the digits before a fraction and an exponent: no zero comes before other digits. -/
def readWhole : List Char → Option (List Char × List Char)
  | '0' :: cs => some (['0'], cs)
  | cs =>
    match spanDigits cs with
    | ([], _) => none
    | found => some found

def readUnsigned (cs : List Char) : Option (Value × List Char) := do
  let (whole, rest) ← readWhole cs
  let (fraction, rest) ← readFraction rest
  let (exponent, rest) ← readExponent rest
  return (if fraction || exponent then .number else .natural (digitsValue whole), rest)

def readNumber : List Char → Option (Value × List Char)
  | '-' :: cs => (readUnsigned cs).map fun p => (.number, p.2)
  | cs => readUnsigned cs

def readText (cs : List Char) : Option (Value × List Char) :=
  (readString cs).map fun p =>
    (match p.1 with
      | some chars => .text (String.ofList chars)
      | none => .garbled, p.2)

/-- Reads the name of a member and the colon after it. -/
def readName (cs : List Char) : Option (Option String × List Char) :=
  match skipSpaces cs with
  | '"' :: rest =>
    match readString rest with
    | none => none
    | some (name, rest) =>
      match skipSpaces rest with
      | ':' :: rest => some (name.map String.ofList, rest)
      | _ => none
  | _ => none

mutual

/-- Reads a value. The first argument bounds the depth of the reading. -/
def readValue : Nat → List Char → Option (Value × List Char)
  | 0, _ => none
  | n + 1, cs =>
    match skipSpaces cs with
    | 'n' :: 'u' :: 'l' :: 'l' :: rest => some (.null, rest)
    | 't' :: 'r' :: 'u' :: 'e' :: rest => some (.bool true, rest)
    | 'f' :: 'a' :: 'l' :: 's' :: 'e' :: rest => some (.bool false, rest)
    | '"' :: rest => readText rest
    | '[' :: rest =>
      match skipSpaces rest with
      | ']' :: rest => some (.array [], rest)
      | rest => (readItems n rest).map fun p => (.array p.1, p.2)
    | '\x7b' :: rest =>
      match skipSpaces rest with
      | '\x7d' :: rest => some (.object [], rest)
      | rest => (readMembers n rest).map fun p => (.object p.1, p.2)
    | rest => readNumber rest

/-- Reads the items of an array up to its bracket, of which there is at least one. -/
def readItems : Nat → List Char → Option (List Value × List Char)
  | 0, _ => none
  | n + 1, cs =>
    match readValue n cs with
    | none => none
    | some (v, rest) =>
      match skipSpaces rest with
      | ']' :: rest => some ([v], rest)
      | ',' :: rest => (readItems n rest).map fun p => (v :: p.1, p.2)
      | _ => none

/-- Reads the members of an object up to its brace, of which there is at least one. -/
def readMembers : Nat → List Char → Option (List (Option String × Value) × List Char)
  | 0, _ => none
  | n + 1, cs =>
    match readName cs with
    | none => none
    | some (name, rest) =>
      match readValue n rest with
      | none => none
      | some (v, rest) =>
        match skipSpaces rest with
        | '\x7d' :: rest => some ([(name, v)], rest)
        | ',' :: rest => (readMembers n rest).map fun p => ((name, v) :: p.1, p.2)
        | _ => none

end

/-- Reads a whole text that holds one value. No value is nested deeper than its text is long. -/
def read (text : String) : Option Value :=
  let cs := text.toList
  match readValue (2 * cs.length + 2) cs with
  | some (v, rest) => if (skipSpaces rest).isEmpty then some v else none
  | none => none

end CallGraph.Json
