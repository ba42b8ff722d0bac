/-!
Compact JSON text.

A writer yields the characters of one value; containers take their parts already written. Strings
are escaped no further than needed: the quote, the backslash and the characters below U+0020.
-/

namespace CallGraph.Json

/-- A digit in base sixteen, in lower case. -/
def hexDigit (n : Nat) : Char := "0123456789abcdef".toList.getD n '0'

/-- How a character stands in a string. -/
def escapeChar (c : Char) : List Char :=
  if c == '"' then ['\\', '"']
  else if c == '\\' then ['\\', '\\']
  else if c.toNat ≥ 0x20 then [c]
  else if c == '\x08' then ['\\', 'b']
  else if c == '\x0c' then ['\\', 'f']
  else if c == '\n' then ['\\', 'n']
  else if c == '\r' then ['\\', 'r']
  else if c == '\t' then ['\\', 't']
  else ['\\', 'u', '0', '0', hexDigit (c.toNat / 16), hexDigit (c.toNat % 16)]

def writeText (s : String) : List Char := '"' :: s.toList.flatMap escapeChar ++ ['"']

def writeNat (n : Nat) : List Char := (Nat.repr n).toList

/-- The value that stands for nothing. -/
def writeNull : List Char := ['n', 'u', 'l', 'l']

/-- Written parts with commas between them. -/
def separated (parts : List (List Char)) : List Char := [','].intercalate parts

def writeArray (items : List (List Char)) : List Char := '[' :: separated items ++ [']']

/-- A member of an object, whose value is written already. -/
def writeMember (m : String × List Char) : List Char := writeText m.1 ++ ':' :: m.2

/-- An object with written members, in this order. -/
def writeObject (members : List (String × List Char)) : List Char :=
  '\x7b' :: separated (members.map writeMember) ++ ['\x7d']

end CallGraph.Json
