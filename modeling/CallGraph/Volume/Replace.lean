import CallGraph.Volume

/-!
Replacing a file at once.

The new text goes to a temporary file, and when it is complete this file takes the name of the old
one. The system may refuse any call on the way although the tree allows it, as it does when a disk
is full. Then the temporary file is removed, if the system lets it be removed, and the old file has
never been touched.
-/

namespace CallGraph.Volume

/-- A call to the system on the way to a replacement. -/
inductive Call where
  | makeDirectory (path : Path)
  | makeTemporary
  | write
  | flush
  | rename
  | removeTemporary
  deriving DecidableEq, Repr

/-- The letters and digits that tell temporary files apart. -/
structure Tag where
  letters : List Char
  length_eq : letters.length = 6
  alphanumeric : letters.all Char.isAlphanum = true

/-- The tag that is used unless another is asked for. -/
def Tag.zeros : Tag := ⟨['0', '0', '0', '0', '0', '0'], rfl, rfl⟩

/-- What the system adds to a replacement: the fault that it refuses a call with, if it does, the
tag of the temporary file, and what a refused write leaves there. -/
structure Conditions where
  refusal? : Call → Option Fault := fun _ => none
  tag : Tag := .zeros
  torn : Content := .text ""

def Conditions.temporaryName (c : Conditions) : String := ".tmp" ++ String.ofList c.tag.letters

/-- The location of a new file, whose name has to be free. -/
def newFileAt (v : Volume) (p : Path) : Except Fault (List String) :=
  match v.locate false p with
  | .ok (.taken ..) => .error .alreadyExists
  | .ok (.free dir name slash) => if slash then .error .isADirectory else .ok (dir ++ [name])
  | .error fault => .error fault

/-- Gives a replacement up: its temporary file is removed, if it can be. -/
def abandon (v : Volume) (c : Conditions) (temporary : Path) (fault : Fault) :
    Volume × Option Fault :=
  match barred (c.refusal? .removeTemporary) (v.removeFile temporary) with
  | .ok w => (w, some fault)
  | .error _ => (v, some fault)

/-- Replaces the content of a file by a text, through a temporary file in a directory. A link that
has the name of the file is replaced, not followed. -/
def replaceText (v : Volume) (c : Conditions) (directory p : Path) (s : String) :
    Volume × Option Fault :=
  let temporary := directory.child c.temporaryName
  match barred (c.refusal? .makeTemporary) (v.newFileAt temporary) with
  | .error fault => (v, some fault)
  | .ok loc =>
    -- The temporary file is open now and is written where it is.
    match c.refusal? .write with
    | some fault => (v.put loc (.file c.torn)).abandon c temporary fault
    | none =>
      let w := v.put loc (.file (.text s))
      match c.refusal? .flush with
      | some fault => w.abandon c temporary fault
      | none =>
        match barred (c.refusal? .rename) (w.rename temporary p) with
        | .error fault => w.abandon c temporary fault
        | .ok u => (u, none)

end CallGraph.Volume
