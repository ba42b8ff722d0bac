import CallGraph.Text.Hex
import CallGraph.Toml.Item

/-!
Strings, numbers and dates of TOML.

Each reader takes one value off the front of a text and returns it with the rest.
-/

namespace CallGraph.Toml

abbrev Reader (α : Type) := List Char → Option (α × List Char)

/-- Whether a character is a blank within a line. -/
def isBlank (c : Char) : Bool := c == ' ' || c == '\t'

def skipBlanks (cs : List Char) : List Char := cs.dropWhile isBlank

/-- Takes a line end off the front. -/
def newline? : List Char → Option (List Char)
  | '\n' :: cs => some cs
  | '\r' :: '\n' :: cs => some cs
  | _ => none

/-- Whether a character may stand in a string as it is, quotes apart. -/
def isPlain (c : Char) : Bool := c == '\t' || (c.toNat ≥ 0x20 && c.toNat != 0x7f)

def isCommentChar (c : Char) : Bool := c == '\t' || c.toNat ≥ 0x20

/-! Strings. -/

/-- The character that a one-letter escape stands for. -/
def shortEscape? (c : Char) : Option Char :=
  match c with
  | 'b' => some '\x08'
  | 'f' => some '\x0c'
  | 'n' => some '\n'
  | 'r' => some '\r'
  | 't' => some '\t'
  | '"' => some '"'
  | '\\' => some '\\'
  | _ => none

def charOf? (n : Nat) : Option Char :=
  if n < 0xd800 || (0xe000 ≤ n && n < 0x110000) then some (Char.ofNat n) else none

def escaped? (digits : List Char) : Option Char := (Text.hexNumber? digits).bind charOf?

def prepend (c : Char) (r : Option (List Char × List Char)) : Option (List Char × List Char) :=
  r.map fun p => (c :: p.1, p.2)

/-- Reads the rest of a string in double quotes. -/
def readBasic : Reader (List Char)
  | [] => none
  | '"' :: cs => some ([], cs)
  | '\\' :: 'u' :: a :: b :: c :: d :: cs =>
    match escaped? [a, b, c, d] with
    | some x => prepend x (readBasic cs)
    | none => none
  | '\\' :: 'U' :: a :: b :: c :: d :: e :: f :: g :: h :: cs =>
    match escaped? [a, b, c, d, e, f, g, h] with
    | some x => prepend x (readBasic cs)
    | none => none
  | '\\' :: e :: cs =>
    match shortEscape? e with
    | some x => prepend x (readBasic cs)
    | none => none
  | c :: cs => if isPlain c then prepend c (readBasic cs) else none

/-- Whether only blanks stand before the next line end. -/
def endsLine (cs : List Char) : Bool := (newline? (skipBlanks cs)).isSome

/-- Reads the rest of a string in three double quotes. Up to two quotes may stand before the closing
ones. After a backslash at the end of a line, `joining` holds until the next character that is no
blank or line end. -/
def readLongBasic (joining : Bool) : Reader (List Char)
  | [] => none
  | '"' :: '"' :: '"' :: '"' :: '"' :: cs => some (['"', '"'], cs)
  | '"' :: '"' :: '"' :: '"' :: cs => some (['"'], cs)
  | '"' :: '"' :: '"' :: cs => some ([], cs)
  | '\\' :: 'u' :: a :: b :: c :: d :: cs =>
    match escaped? [a, b, c, d] with
    | some x => prepend x (readLongBasic false cs)
    | none => none
  | '\\' :: 'U' :: a :: b :: c :: d :: e :: f :: g :: h :: cs =>
    match escaped? [a, b, c, d, e, f, g, h] with
    | some x => prepend x (readLongBasic false cs)
    | none => none
  | '\\' :: e :: cs =>
    if endsLine (e :: cs) then readLongBasic true cs
    else
      match shortEscape? e with
      | some x => prepend x (readLongBasic false cs)
      | none => none
  | '\r' :: '\n' :: cs =>
    if joining then readLongBasic true cs else prepend '\n' (readLongBasic false cs)
  | c :: cs =>
    if joining && (isBlank c || c == '\n') then readLongBasic true cs
    else if c == '\n' || isPlain c then prepend c (readLongBasic false cs)
    else none

def readLiteral : Reader (List Char)
  | [] => none
  | '\'' :: cs => some ([], cs)
  | c :: cs => if isPlain c then prepend c (readLiteral cs) else none

def readLongLiteral : Reader (List Char)
  | [] => none
  | '\'' :: '\'' :: '\'' :: '\'' :: '\'' :: cs => some (['\'', '\''], cs)
  | '\'' :: '\'' :: '\'' :: '\'' :: cs => some (['\''], cs)
  | '\'' :: '\'' :: '\'' :: cs => some ([], cs)
  | '\r' :: '\n' :: cs => prepend '\n' (readLongLiteral cs)
  | c :: cs => if c == '\n' || isPlain c then prepend c (readLongLiteral cs) else none

/-- The text after a line end, if it starts with one. -/
def skipNewline (cs : List Char) : List Char := (newline? cs).getD cs

def readString? : Reader Item
  | '"' :: '"' :: '"' :: cs => text (readLongBasic false (skipNewline cs))
  | '"' :: cs => text (readBasic cs)
  | '\'' :: '\'' :: '\'' :: cs => text (readLongLiteral (skipNewline cs))
  | '\'' :: cs => text (readLiteral cs)
  | _ => none
where
  text (r : Option (List Char × List Char)) : Option (Item × List Char) :=
    r.map fun p => (.text (String.ofList p.1), p.2)

/-! Numbers. -/

/-- Reads the rest of a row of digits, in which a bar may part two digits. -/
def moreDigits (isDigit : Char → Bool) : Reader (List Char)
  | '_' :: d :: cs => if isDigit d then prepend d (moreDigits isDigit cs) else none
  | c :: cs => if isDigit c then prepend c (moreDigits isDigit cs) else some ([], c :: cs)
  | [] => some ([], [])

def digits (isDigit : Char → Bool) : Reader (List Char)
  | c :: cs => if isDigit c then prepend c (moreDigits isDigit cs) else none
  | [] => none

/-- Takes a sign off the front and tells whether it is a minus. -/
def sign : List Char → Bool × List Char
  | '-' :: cs => (true, cs)
  | '+' :: cs => (false, cs)
  | cs => (false, cs)

/-- Reads decimal digits of which a zero is never the first of several. -/
def decimal : Reader (List Char)
  | '0' :: cs => some (['0'], cs)
  | cs => digits Char.isDigit cs

/-- The number that digits stand for in a base up to sixteen. -/
def valueIn (base : Nat) (ds : List Char) : Nat :=
  ds.foldl (fun n d => n * base + (Text.hexDigit? d).getD 0) 0

def fits (n : Int) : Bool :=
  -Int.ofNat (Nat.pow 2 63) ≤ n && n < Int.ofNat (Nat.pow 2 63)

def readInteger? (cs : List Char) : Option (Item × List Char) :=
  let inBase (base : Nat) (isDigit : Char → Bool) (cs : List Char) : Option (Int × List Char) :=
    (digits isDigit cs).map fun p => (Int.ofNat (valueIn base p.1), p.2)
  let found := match cs with
    | '0' :: 'x' :: ds => inBase 16 (fun c => (Text.hexDigit? c).isSome) ds
    | '0' :: 'o' :: ds => inBase 8 (fun c => '0' ≤ c && c ≤ '7') ds
    | '0' :: 'b' :: ds => inBase 2 (fun c => c == '0' || c == '1') ds
    | _ =>
      let (minus, ds) := sign cs
      (decimal ds).map fun p =>
        (if minus then -Int.ofNat (valueIn 10 p.1) else Int.ofNat (valueIn 10 p.1), p.2)
  match found with
  | some (n, rest) => if fits n then some (.integer n, rest) else none
  | none => none

/-- Whether a decimal number lies beyond the finite double precision numbers: `ds` are its digits,
and the last of them counts ten to the power of `exponent`. -/
def overflows (ds : List Char) (exponent : Int) : Bool :=
  let significant := ds.dropWhile (· == '0')
  let magnitude := Int.ofNat significant.length + exponent
  if significant.isEmpty || magnitude < 308 then false
  else if magnitude > 310 then true
  else
    let bound := Nat.pow 2 1024 - Nat.pow 2 970
    let n := valueIn 10 significant
    if exponent ≥ 0 then n * Nat.pow 10 exponent.toNat ≥ bound
    else n ≥ bound * Nat.pow 10 (-exponent).toNat

def readPower : Reader Int
  | e :: cs =>
    if e == 'e' || e == 'E' then
      let (minus, ds) := sign cs
      (digits Char.isDigit ds).map fun p =>
        (if minus then -Int.ofNat (valueIn 10 p.1) else Int.ofNat (valueIn 10 p.1), p.2)
    else none
  | [] => none

def readDecimal? (cs : List Char) : Option (Item × List Char) := do
  let (minus, ds) := sign cs
  let (whole, rest) ← decimal ds
  let (fraction, rest) ← match rest with
    | '.' :: es => digits Char.isDigit es
    | _ => some ([], rest)
  let (power, rest) ← match readPower rest with
    | some found => some found
    | none => if fraction.isEmpty then none else some (0, rest)
  if !minus && overflows (whole ++ fraction) (power - fraction.length) then none
  else some (.float, rest)

/-- Reads a number that is infinite or none at all. -/
def readSpecial? (cs : List Char) : Option (Item × List Char) :=
  match (sign cs).2 with
  | 'i' :: 'n' :: 'f' :: rest => some (.float, rest)
  | 'n' :: 'a' :: 'n' :: rest => some (.float, rest)
  | _ => none

/-! Dates. -/

def fixedDigits (count : Nat) (cs : List Char) : Option (Nat × List Char) :=
  let ds := cs.take count
  if ds.length == count && ds.all Char.isDigit then some (valueIn 10 ds, cs.drop count) else none

/-- Reads two digits of which the value has bounds. -/
def twoDigits (low high : Nat) (cs : List Char) : Option (Nat × List Char) :=
  match fixedDigits 2 cs with
  | some (n, rest) => if low ≤ n && n ≤ high then some (n, rest) else none
  | none => none

def expect (c : Char) : List Char → Option (List Char)
  | d :: cs => if c == d then some cs else none
  | [] => none

def daysIn (year month : Nat) : Nat :=
  if month == 2 then
    if year % 4 == 0 && (year % 100 != 0 || year % 400 == 0) then 29 else 28
  else if [4, 6, 9, 11].contains month then 30
  else 31

def readDay? (cs : List Char) : Option (List Char) := do
  let (year, cs) ← fixedDigits 4 cs
  let cs ← expect '-' cs
  let (month, cs) ← twoDigits 1 12 cs
  let cs ← expect '-' cs
  let (_, cs) ← twoDigits 1 (daysIn year month) cs
  return cs

def readTime? (cs : List Char) : Option (List Char) := do
  let (_, cs) ← twoDigits 0 23 cs
  let cs ← expect ':' cs
  let (_, cs) ← twoDigits 0 59 cs
  let cs ← expect ':' cs
  let (_, cs) ← twoDigits 0 60 cs
  match cs with
  | '.' :: ds => if (ds.takeWhile Char.isDigit).isEmpty then none else some (ds.dropWhile Char.isDigit)
  | _ => some cs

/-- Reads the offset of a time zone, if there is one, and returns the rest. -/
def readZone? : List Char → Option (List Char)
  | c :: cs =>
    if c == 'Z' || c == 'z' then some cs
    else if c == '+' || c == '-' then do
      let (_, cs) ← twoDigits 0 23 cs
      let cs ← expect ':' cs
      let (_, cs) ← twoDigits 0 59 cs
      return cs
    else some (c :: cs)
  | [] => some []

def readDate? (cs : List Char) : Option (Item × List Char) :=
  match readDay? cs with
  | none => (readTime? cs).map fun rest => (.date, rest)
  | some rest =>
    match rest with
    | c :: ds =>
      if c == 'T' || c == 't' || c == ' ' then
        match readTime? ds with
        | some rest => (readZone? rest).map fun rest => (.date, rest)
        | none => some (.date, rest)
      else some (.date, rest)
    | [] => some (.date, [])

def expectWord (word : String) (cs : List Char) : Option (List Char) :=
  if word.toList.isPrefixOf cs then some (cs.drop word.length) else none

def readBoolean? (cs : List Char) : Option (Item × List Char) :=
  match expectWord "true" cs with
  | some rest => some (.boolean true, rest)
  | none => (expectWord "false" cs).map fun rest => (.boolean false, rest)

def firstOf (readers : List (Reader Item)) (cs : List Char) : Option (Item × List Char) :=
  readers.findSome? fun r => r cs

def readScalar? (cs : List Char) : Option (Item × List Char) :=
  firstOf [readString?, readBoolean?, readDate?, readSpecial?, readDecimal?, readInteger?] cs

end CallGraph.Toml
