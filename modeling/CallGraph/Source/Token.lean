import CallGraph.Text.Blank
import CallGraph.Text.Identifier

/-!
Tokens of Rust sources.

The text of a file is cut into tokens without loss: blanks and comments are tokens too, and the
texts of the tokens, one after the other, are the text of the file. A scanner never cuts a text
itself; it tells the kind of the token that starts at a character and how many of the following
characters belong to it.

Punctuation is cut greedily, so `>>` is one token; the grammar takes such a token apart where two
closing brackets are meant.
-/

namespace CallGraph.Source

/-- What a token is. -/
inductive TokenKind where
  | blank
  | comment
  /-- An identifier or a keyword. -/
  | word
  /-- A lifetime or a label, with its quote. -/
  | lifetime
  /-- A whole number. -/
  | integer
  /-- Any other literal. -/
  | literal
  | punctuation
  /-- A character or an unfinished literal that starts no token. -/
  | invalid
  deriving DecidableEq, Repr

structure Token where
  kind : TokenKind
  text : String
  deriving DecidableEq, Repr

/-- Whether the token separates others and is nothing else. -/
def Token.isTrivia (t : Token) : Bool := t.kind == .blank || t.kind == .comment

namespace Scan

def isHex (c : Char) : Bool :=
  c.isDigit || ('a' ≤ c && c ≤ 'f') || ('A' ≤ c && c ≤ 'F')

/-- Whether a character stands in the digits of a number. -/
def isDigitOrBar (c : Char) : Bool := c.isDigit || c == '_'

/-- How many characters at the front satisfy a test. -/
def countWhile (p : Char → Bool) (cs : List Char) : Nat := (cs.takeWhile p).length

def startsWith (s : List Char) (cs : List Char) : Bool := s.isPrefixOf cs

/-- The length of the rest of a block comment, whose comments nest; none if it does not end. -/
def commentLength : Nat → List Char → Option Nat
  | _, [] => none
  | depth, '*' :: '/' :: cs =>
    match depth with
    | 0 => some 2
    | d + 1 => (commentLength d cs).map (· + 2)
  | depth, '/' :: '*' :: cs => (commentLength (depth + 1) cs).map (· + 2)
  | depth, _ :: cs => (commentLength depth cs).map (· + 1)

/-- The length of what follows the letter of an escape, or none if the escape is not allowed: two
hexadecimal digits after `x`, and after `u` four of them or any number in braces. -/
def escapeTail (letter : Char) (cs : List Char) : Option Nat :=
  if letter == 'x' then
    if countWhile isHex (cs.take 2) == 2 then some 2 else none
  else if letter == 'u' then
    match cs with
    | '\x7b' :: ds =>
      let n := countWhile isHex ds
      if n > 0 && (ds.drop n).head? == some '\x7d' then some (n + 2) else none
    | _ => if countWhile isHex (cs.take 4) == 4 then some 4 else none
  else some 0

/-- The length of the rest of a string, its closing quote included. -/
def stringLength : List Char → Option Nat
  | [] => none
  | '"' :: _ => some 1
  | '\\' :: c :: cs =>
    if (escapeTail c cs).isSome then (stringLength cs).map (· + 2) else none
  | _ :: cs => (stringLength cs).map (· + 1)

def rawStringLength (hashes : Nat) : List Char → Option Nat
  | [] => none
  | '"' :: cs =>
    if cs.take hashes == List.replicate hashes '#' then some (hashes + 1)
    else (rawStringLength hashes cs).map (· + 1)
  | _ :: cs => (rawStringLength hashes cs).map (· + 1)

/-- The length of a raw string after its letter: hashes, a quote, and the rest. -/
def rawLength (cs : List Char) : Option Nat :=
  let hashes := countWhile (· == '#') cs
  match cs.drop hashes with
  | '"' :: ds => (rawStringLength hashes ds).map (· + hashes + 1)
  | _ => none

/-- Whether a raw string starts here. -/
def startsRaw (cs : List Char) : Bool :=
  (cs.dropWhile (· == '#')).head? == some '"'

/-- The length of the rest of a character literal, its closing quote included. -/
def characterLength : List Char → Option Nat
  | '\'' :: _ => some 1
  | '\\' :: c :: cs =>
    match escapeTail c cs with
    | some n => if (cs.drop n).head? == some '\'' then some (n + 3) else none
    | none => none
  | _ :: '\'' :: _ => some 2
  | _ => none

/-- The types that may follow the digits of a number. -/
def numberSuffixes : List (List Char) :=
  ["u8", "i8", "u16", "i16", "u32", "i32", "u64", "i64", "u128", "i128", "isize", "usize", "f32",
    "f64"].map String.toList

/-- The length of a type at the front that a number may have. -/
def suffixLength (cs : List Char) : Nat :=
  (numberSuffixes.find? (fun s => startsWith s cs)).elim 0 List.length

/-- The length of the rest of a whole number that starts with a digit. -/
def integerLength (c : Char) (cs : List Char) : Nat :=
  let digits (p : Char → Bool) : Option Nat :=
    let n := countWhile (fun d => p d || d == '_') (cs.drop 1)
    if n > 0 then some (n + 1) else none
  let inBase : Option Nat :=
    match c, cs.head? with
    | '0', some 'x' => digits isHex
    | '0', some 'b' => digits (fun d => d == '0' || d == '1')
    | '0', some 'o' => digits (fun d => '0' ≤ d && d ≤ '7')
    | _, _ => none
  let n := inBase.getD (countWhile isDigitOrBar cs)
  n + suffixLength (cs.drop n)

/-- The length of the exponent at the front of a number. -/
def exponentLength (cs : List Char) : Nat :=
  match cs with
  | e :: ds =>
    if e == 'e' || e == 'E' then
      let sign := if ds.head? == some '+' || ds.head? == some '-' then 1 else 0
      let n := countWhile isDigitOrBar (ds.drop sign)
      if n > 0 then n + sign + 1 else 0
    else 0
  | [] => 0

/-- The length of the rest of a number with a fraction or an exponent, or none if it has neither. A
point that a name or another point follows is no fraction. -/
def floatLength (cs : List Char) : Option Nat :=
  let whole := countWhile isDigitOrBar cs
  let fraction : Option Nat :=
    match cs.drop whole with
    | '.' :: ds =>
      match ds.head? with
      | some d =>
        if d == '.' || d.isAlpha || (d.toNat ≥ 0x80 && Text.startsIdentifier d) then none
        else some (countWhile isDigitOrBar ds + 1)
      | none => some 1
    | _ => some 0
  match fraction with
  | none => none
  | some f =>
    let exponent := exponentLength (cs.drop (whole + f))
    if f == 0 && exponent == 0 then none
    else
      let n := whole + f + exponent
      let suffix :=
        match cs.drop n with
        | t :: ds =>
          if t == 'u' || t == 'i' || t == 'f' then
            let digits := countWhile Char.isDigit ds
            if digits > 0 then digits + 1 else 0
          else 0
        | [] => 0
      some (n + suffix)

/-- The punctuation of more than one character, the longest first. -/
def longPunctuation : List (List Char) :=
  ["<<=", ">>=", "...", "..=", "&&", "||", "<<", ">>", "+=", "-=", "*=", "/=", "%=", "^=", "&=",
    "|=", "==", "!=", "<=", ">=", "->", "=>", "::", ".."].map String.toList

/-- The punctuation of one character. -/
def shortPunctuation : List Char :=
  "()[]\x7b\x7d,;:.=<>+-*/%^&|!?@#$~\\".toList

/-- A token whose rest has this length, or one that is not valid and takes everything. -/
def orInvalid (kind : TokenKind) (rest : Option Nat) (cs : List Char) : TokenKind × Nat :=
  match rest with
  | some n => (kind, n)
  | none => (.invalid, cs.length)

/-- The token that a letter starts: a raw identifier, a literal with a letter in front, or a
word. -/
def letterToken (c : Char) (cs : List Char) : TokenKind × Nat :=
  let word := (TokenKind.word, countWhile Text.continuesIdentifier cs)
  match c, cs with
  | 'r', ds =>
    if startsRaw ds then orInvalid .literal (rawLength ds) ds
    else
      match ds with
      | '#' :: d :: es =>
        if Text.startsIdentifier d then (.word, countWhile Text.continuesIdentifier es + 2)
        else word
      | _ => word
  | _, '"' :: ds =>
    if c == 'b' || c == 'c' then orInvalid .literal ((stringLength ds).map (· + 1)) cs else word
  | 'b', '\'' :: ds => orInvalid .literal ((characterLength ds).map (· + 1)) cs
  | _, 'r' :: ds =>
    if (c == 'b' || c == 'c') && startsRaw ds then
      orInvalid .literal ((rawLength ds).map (· + 1)) cs
    else word
  | _, _ => word

def quoteToken (cs : List Char) : TokenKind × Nat :=
  match characterLength cs with
  | some n => (.literal, n)
  | none =>
    match cs with
    | c :: ds =>
      if Text.startsIdentifier c then (.lifetime, countWhile Text.continuesIdentifier ds + 1)
      else (.invalid, 0)
    | [] => (.invalid, 0)

/-- The token that a digit starts. After a point, digits are the name of a field. -/
def digitToken (afterPoint : Bool) (c : Char) (cs : List Char) : TokenKind × Nat :=
  match if afterPoint then none else floatLength cs with
  | some n => (.literal, n)
  | none => (.integer, integerLength c cs)

def punctuationToken (c : Char) (cs : List Char) : TokenKind × Nat :=
  match longPunctuation.find? (fun s => startsWith s (c :: cs)) with
  | some s => (.punctuation, s.length - 1)
  | none => if shortPunctuation.contains c then (.punctuation, 0) else (.invalid, 0)

/-- The token that starts at a character, by its kind and the number of characters of it that
follow. `afterPoint` tells whether the last token that is not trivia is a point. -/
def token (afterPoint : Bool) (c : Char) (cs : List Char) : TokenKind × Nat :=
  if Text.isBlank c then (.blank, countWhile Text.isBlank cs)
  else if c == '/' && cs.head? == some '/' then (.comment, countWhile (· != '\n') cs)
  else if c == '/' && cs.head? == some '*' then
    orInvalid .comment ((commentLength 0 (cs.drop 1)).map (· + 1)) cs
  else if c == '"' then orInvalid .literal (stringLength cs) cs
  else if c == '\'' then quoteToken cs
  else if c.isDigit then digitToken afterPoint c cs
  else if Text.startsIdentifier c then letterToken c cs
  else punctuationToken c cs

/-- The length of the first line if it names an interpreter: it starts with `#!`, and what comes
next, blanks apart, does not open an attribute. -/
def interpreterLine (cs : List Char) : Option Nat :=
  if startsWith ['#', '!'] cs then
    let line := countWhile (· != '\n') cs
    let rest := ((cs.take line).drop 2).dropWhile
      (fun c => c == ' ' || c == '\t' || c == '\r' || c == '\x0b' || c == '\x0c')
    if line < cs.length && rest.head? != some '[' then some (line + 1) else none
  else none

end Scan

/-- A token under construction: its kind, its characters so far, the last first, and how many are
still to come. -/
structure Pending where
  kind : TokenKind
  chars : List Char
  left : Nat

/-- The token of a finished construction. -/
def Pending.token (p : Pending) : Token := ⟨p.kind, String.ofList p.chars.reverse⟩

/-- Whether the next token stands after a point, given whether this one does. -/
def Pending.afterPoint (p : Pending) (before : Bool) : Bool :=
  if p.token.isTrivia then before else p.kind == .punctuation && p.chars == ['.']

/-- The tokens of a text, of which the first is under construction. -/
def tokensFrom (afterPoint : Bool) (p : Pending) : List Char → List Token
  | [] => [p.token]
  | c :: cs =>
    match p.left with
    | n + 1 => tokensFrom afterPoint { p with chars := c :: p.chars, left := n } cs
    | 0 =>
      let after := p.afterPoint afterPoint
      let (kind, left) := Scan.token after c cs
      p.token :: tokensFrom after ⟨kind, [c], left⟩ cs

/-- The tokens of a text. A byte order mark and a line that names an interpreter are trivia when the
text starts with them. -/
def tokens (text : String) : List Token :=
  let cs := text.toList
  let mark := Scan.countWhile (· == '\ufeff') (cs.take 1)
  let lead := mark + Scan.countWhile Text.isBlank (cs.drop mark)
  match Scan.interpreterLine (cs.drop lead), cs with
  | some n, c :: ds => tokensFrom false ⟨.comment, [c], lead + n - 1⟩ ds
  | none, c :: ds =>
    if mark == 0 then
      let (kind, left) := Scan.token false c ds
      tokensFrom false ⟨kind, [c], left⟩ ds
    else tokensFrom false ⟨.blank, [c], 0⟩ ds
  | _, [] => []

end CallGraph.Source
