/-!
Blanks, and texts on one line.

A blank is a character of the Unicode property `White_Space`. `compact` keeps the words of a text,
the runs between blanks, and writes them with one space between two of them.
-/

namespace CallGraph.Text

def isBlank (c : Char) : Bool :=
  let n := c.toNat
  (9 ≤ n && n ≤ 13) || n == 0x20 || n == 0x85 || n == 0xa0 || n == 0x1680 ||
    (0x2000 ≤ n && n ≤ 0x200a) || n == 0x2028 || n == 0x2029 || n == 0x202f || n == 0x205f ||
    n == 0x3000

/-- The words of a text. The first argument holds the word that is being read, reversed. -/
def wordsFrom : List Char → List Char → List (List Char)
  | [], [] => []
  | word, [] => [word.reverse]
  | [], c :: cs => if isBlank c then wordsFrom [] cs else wordsFrom [c] cs
  | word, c :: cs =>
    if isBlank c then word.reverse :: wordsFrom [] cs else wordsFrom (c :: word) cs

/-- The maximal runs of characters that are not blank. -/
def words (s : String) : List String := (wordsFrom [] s.toList).map String.ofList

/-- The words of a text with one space between two of them. -/
def compact (s : String) : String := String.intercalate " " (words s)

end CallGraph.Text
