/-!
Numbers in base sixteen.
-/

namespace CallGraph.Text

/-- The value of a digit in base sixteen. -/
def hexDigit? (c : Char) : Option Nat :=
  if '0' ≤ c ∧ c ≤ '9' then some (c.toNat - '0'.toNat)
  else if 'a' ≤ c ∧ c ≤ 'f' then some (c.toNat - 'a'.toNat + 10)
  else if 'A' ≤ c ∧ c ≤ 'F' then some (c.toNat - 'A'.toNat + 10)
  else none

/-- The number that digits in base sixteen stand for, after the digits of `n`. -/
def hexNumberFrom? (n : Nat) : List Char → Option Nat
  | [] => some n
  | c :: cs =>
    match hexDigit? c with
    | some d => hexNumberFrom? (n * 16 + d) cs
    | none => none

/-- The number that digits in base sixteen stand for. -/
def hexNumber? (cs : List Char) : Option Nat := hexNumberFrom? 0 cs

/-- The bytes that pairs of digits in base sixteen stand for. -/
def hexBytes? : List Char → Option (List UInt8)
  | [] => some []
  | a :: b :: cs =>
    match hexNumber? [a, b], hexBytes? cs with
    | some n, some bytes => some (n.toUInt8 :: bytes)
    | _, _ => none
  | [_] => none

end CallGraph.Text
