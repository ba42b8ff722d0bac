import CallGraph.Json.Reader

/-!
Records in JSON values.

A record is an object or an array. In an object, fields come in any order, none twice, and members
with other names are ignored, whatever their values hold; each member has a name. In an array, the
fields come in their order, all of them and nothing else.
-/

namespace CallGraph.Json

def lastMember? (name : String) (members : List (Option String × Value)) : Option Value :=
  (members.reverse.find? fun m => m.1 == some name).map Prod.snd

/-- The values of the fields with these names, in this order; none for a field that is not there. -/
def fields? (names : List String) : Value → Option (List (Option Value))
  | .object members =>
    if (members.all fun m => m.1.isSome) &&
        names.all fun name => (members.filter fun m => m.1 == some name).length ≤ 1 then
      some (names.map fun name => lastMember? name members)
    else none
  | .array items => if items.length == names.length then some (items.map some) else none
  | _ => none

def natBelow? (bound : Nat) : Value → Option Nat
  | .natural n => if n < bound then some n else none
  | _ => none

def text? : Value → Option String
  | .text s => some s
  | _ => none

/-- A list whose items satisfy a reader. -/
def list? {α : Type} (item : Value → Option α) : Value → Option (List α)
  | .array items => items.mapM item
  | _ => none

/-- A value that may be null or missing. -/
def optional? {α : Type} (inner : Value → Option α) : Option Value → Option (Option α)
  | none => some none
  | some .null => some none
  | some v => (inner v).map some

end CallGraph.Json
