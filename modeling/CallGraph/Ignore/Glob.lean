/-!
Glob patterns for paths.

A pattern is a list of steps that are matched against the bytes of a path, one after the other. A
star or a question mark never matches a slash; a class may. Two stars between slashes, or at an end
of the pattern beside a slash, match any number of segments.

Matching keeps the set of all rests of the path that the steps so far can leave.
-/

namespace CallGraph.Ignore

inductive Step where
  /-- This byte. -/
  | byte (value : UInt8)
  /-- Any byte but a slash. -/
  | any
  /-- Any number of bytes that are no slash. -/
  | star
  /-- A byte in one of some ranges, or in none of them. -/
  | range (negated : Bool) (ranges : List (UInt8 × UInt8))
  /-- Any number of segments at the start. -/
  | leading
  /-- A slash and all that follows. -/
  | trailing
  /-- A slash, and then any number of segments. -/
  | between
  /-- Anything at all. -/
  | everything
  deriving DecidableEq, Repr

def slash : UInt8 := 47

def bytesOf (s : String) : List UInt8 := s.toList.flatMap String.utf8EncodeChar

/-! Reading patterns. -/

/-- What stands after an opening bracket. -/
inductive ClassRead where
  /-- No bracket closes the class. -/
  | unclosed
  /-- A range is upside down. -/
  | invalid
  | closed (ranges : List (Char × Char)) (rest : List Char)

/-- Reads the ranges of a class. `ranges` are those so far, the last first; `inRange` tells that the
last one waits for its end. A closing bracket that comes first stands for itself. -/
def readRanges (first inRange : Bool) (ranges : List (Char × Char)) : List Char → ClassRead
  | [] => .unclosed
  | c :: cs =>
    if c == ']' && !first then
      .closed (if inRange then ('-', '-') :: ranges else ranges) cs
    else if c == '-' && !first && !inRange then readRanges false true ranges cs
    else if inRange then
      match ranges with
      | (low, _) :: before =>
        if c < low then .invalid else readRanges false false ((low, c) :: before) cs
      | [] => .invalid
    else readRanges false false ((c, c) :: ranges) cs

/-- The byte ranges that a range of characters stands for. Bytes are compared one by one, so a
character of several bytes stands for each of them. -/
def byteRanges (r : Char × Char) : List (UInt8 × UInt8) :=
  let low := String.utf8EncodeChar r.1
  let high := String.utf8EncodeChar r.2
  let single (b : UInt8) : UInt8 × UInt8 := (b, b)
  if r.1 == r.2 then low.map single
  else
    low.dropLast.map single ++ [(low.getLastD 0, high.headD 0)] ++ high.tail.map single

/-- Replaces the slash before two stars by a step that also matches it. -/
def afterSlash (step : Step) : List Step → List Step
  | .leading :: steps => .leading :: steps
  | .trailing :: steps => .trailing :: steps
  | _ :: steps => step :: steps
  | [] => [step]

/-- Reads a pattern, given the character before and the steps so far, the last first. The first
argument bounds the length of the pattern. -/
def readSteps : Nat → Option Char → List Step → List Char → Option (List Step)
  | 0, _, _, _ => none
  | n + 1, before, steps, cs =>
    match cs with
    | [] => some steps.reverse
    | '?' :: rest => readSteps n (some '?') (.any :: steps) rest
    | '*' :: '*' :: rest =>
      if steps.isEmpty then
        match rest with
        | [] => readSteps n (some '*') [.leading] []
        | '/' :: rest => readSteps n (some '/') [.leading] rest
        | _ => readSteps n (some '*') [.star, .star] rest
      else if before == some '/' then
        match rest with
        | [] => readSteps n (some '*') (afterSlash .trailing steps) []
        | '/' :: rest => readSteps n (some '/') (afterSlash .between steps) rest
        | _ => readSteps n (some '*') (.star :: .star :: steps) rest
      else readSteps n (some '*') (.star :: .star :: steps) rest
    | '*' :: rest => readSteps n (some '*') (.star :: steps) rest
    | '[' :: rest =>
      let (negated, inner) := match rest with
        | '!' :: inner => (true, inner)
        | '^' :: inner => (true, inner)
        | inner => (false, inner)
      match readRanges true false [] inner with
      | .closed ranges rest =>
        readSteps n (some ']') (.range negated (ranges.reverse.flatMap byteRanges) :: steps) rest
      | .invalid => none
      | .unclosed => readSteps n (some '[') (.byte 91 :: steps) rest
    | '\\' :: c :: rest => readSteps n (some c) (literal c ++ steps) rest
    | '\\' :: [] => none
    | c :: rest => readSteps n (some c) (literal c ++ steps) rest
where
  /-- The steps of a character that stands for itself, the last first. -/
  literal (c : Char) : List Step := (String.utf8EncodeChar c).reverse.map Step.byte

/-- Reads a pattern. Two stars alone match everything. -/
def readGlob? (pattern : List Char) : Option (List Step) :=
  match readSteps (pattern.length + 1) none [] pattern with
  | some [.leading] => some [.everything]
  | found => found

/-! Matching. -/

/-- All rests of a text after any number of bytes that satisfy a test. -/
def restsWhile (p : UInt8 → Bool) : List UInt8 → List (List UInt8)
  | [] => [[]]
  | b :: bs => (b :: bs) :: if p b then restsWhile p bs else []

/-- All rests of a text after one of its slashes. -/
def restsAfterSlash : List UInt8 → List (List UInt8)
  | [] => []
  | b :: bs => if b == slash then bs :: restsAfterSlash bs else restsAfterSlash bs

/-- The rests of a text that a step can leave. -/
def Step.rests (s : Step) (bs : List UInt8) : List (List UInt8) :=
  match s, bs with
  | .byte v, b :: bs => if b == v then [bs] else []
  | .any, b :: bs => if b != slash then [bs] else []
  | .star, bs => restsWhile (· != slash) bs
  | .range negated ranges, b :: bs =>
    if (ranges.any fun r => r.1 ≤ b && b ≤ r.2) != negated then [bs] else []
  | .leading, bs => bs :: restsAfterSlash bs
  | .trailing, b :: bs => if b == slash then restsWhile (fun _ => true) bs else []
  | .between, b :: bs => if b == slash then bs :: restsAfterSlash bs else []
  | .everything, bs => restsWhile (fun _ => true) bs
  | _, [] => []

/-- Keeps one of the rests with the same length: all are rests of one text. -/
def distinct (rests : List (List UInt8)) : List (List UInt8) :=
  rests.foldl (fun kept r => if kept.any (fun k => k.length == r.length) then kept else r :: kept) []

def matchesGlob (steps : List Step) (text : String) : Bool :=
  (steps.foldl (fun rests s => distinct (rests.flatMap s.rests)) [bytesOf text]).any List.isEmpty

end CallGraph.Ignore
