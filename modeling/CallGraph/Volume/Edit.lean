import CallGraph.Volume

/-!
Edits of a file tree, and what they signal to those who watch it.

A signal names locations, not paths: which path it is reported under depends on who watches. A new
file that is not empty is signalled twice, as it is made and as it is filled. A rename is one signal
with both locations.
-/

namespace CallGraph.Volume

inductive Change where
  | created
  | modified
  | removed
  deriving DecidableEq, Repr

def Change.text : Change → String
  | .created => "created"
  | .modified => "modified"
  | .removed => "removed"

/-- What an edit signals. -/
inductive Signal where
  | single (change : Change) (location : List String)
  | moved (source target : List String)
  deriving DecidableEq, Repr

/-- A change of a file tree from outside. -/
inductive Edit where
  /-- Puts an entry at a path and makes the directories above it. -/
  | write (path : Path) (entry : Entry)
  | remove (path : Path)
  | rename (source target : Path)

structure Edited where
  volume : Volume
  signals : List Signal := []
  fault : Option Fault := none

/-- Makes the directories above a path. -/
def prepareParent (v : Volume) (p : Path) : Volume × Option Fault :=
  match p.parent? with
  | none => (v, none)
  | some parent => v.createDirectories parent

def writeEntry (v : Volume) (p : Path) : Entry → Volume × Option Fault
  | .file content => v.settle (v.writeContent p content)
  | .directory _ => v.createDirectories p
  | .link target => v.settle (v.createLink p target)

/-- Where a path leads; a link at its end is followed if a file is written. -/
def locationOf (v : Volume) (p : Path) (entry : Entry) : Option (List String) :=
  match v.locate entry.isFile p with
  | .ok (.taken location _) => some location
  | _ => none

/-- Whether a file holds nothing. -/
def Entry.isEmptyFile : Entry → Bool
  | .file (.text s) => s == ""
  | .file (.binary bytes) => bytes.isEmpty
  | _ => false

/-- What writing an entry at a location signals. -/
def writeSignals (before : Volume) (location : List String) (entry : Entry) : List Signal :=
  match before.entryAt location with
  | some _ => if entry.isFile then [.single .modified location] else []
  | none =>
    .single .created location ::
      (if entry.isFile && !entry.isEmptyFile then [.single .modified location] else [])

mutual

/-- What the removal of an entry signals: first all that is in it. -/
def Entry.removalSignals (location : List String) : Entry → List Signal
  | .directory entries => Entries.removalSignals location entries ++ [.single .removed location]
  | _ => [.single .removed location]

/-- What the removal of the entries of a directory signals. -/
def Entries.removalSignals (location : List String) : List (String × Entry) → List Signal
  | [] => []
  | (name, entry) :: es =>
    Entry.removalSignals (location ++ [name]) entry ++ Entries.removalSignals location es

end

/-- What the removal of what a path names signals. -/
def removeSignals (v : Volume) (p : Path) : List Signal :=
  match v.locate false p with
  | .ok (.taken location entry) => entry.removalSignals location
  | _ => []

/-- Where a path leads, or would lead if anything were there; a link at its end is not followed. -/
def spotLocation (v : Volume) (p : Path) : Option (List String) :=
  match v.locate false p with
  | .ok (.taken location _) => some location
  | .ok (.free directory name _) => some (directory ++ [name])
  | .error _ => none

def edit (v : Volume) : Edit → Edited
  | .write p entry =>
    match v.prepareParent p with
    | (w, some fault) => { volume := w, fault := some fault }
    | (w, none) =>
      match w.writeEntry p entry with
      | (u, some fault) => { volume := u, fault := some fault }
      | (u, none) =>
        { volume := u
          signals := ((u.locationOf p entry).map fun l => writeSignals v l entry).getD [] }
  | .remove p =>
    match v.remove p with
    | (w, none) => { volume := w, signals := removeSignals v p }
    | (w, some fault) => { volume := w, fault := some fault }
  | .rename source target =>
    match v.rename source target with
    | .error fault => { volume := v, fault := some fault }
    | .ok w =>
      { volume := w
        signals :=
          match v.spotLocation source, v.spotLocation target with
          | some old, some new => [.moved old new]
          | _, _ => [] }

mutual

/-- The edits that lead from an entry, if any, to another at the same location. -/
def Entry.editsFrom (location : List String) (old : Option Entry) : Entry → List Edit
  | .directory entries =>
    let start : List Edit × List (String × Entry) :=
      match old with
      | some (.directory olds) => ([], olds)
      | some _ => ([.remove (pathOf location), .write (pathOf location) (.directory [])], [])
      | none => ([.write (pathOf location) (.directory [])], [])
    let gone := start.2.filter fun e => !entries.any fun f => f.1 == e.1
    start.1 ++ gone.map (fun e => .remove (pathOf (location ++ [e.1]))) ++
      Entries.editsFrom location start.2 entries
  | .file content =>
    match old with
    | some (.file before) =>
      if before = content then [] else [.write (pathOf location) (.file content)]
    | some _ => [.remove (pathOf location), .write (pathOf location) (.file content)]
    | none => [.write (pathOf location) (.file content)]
  | .link target =>
    match old with
    | some (.link before) =>
      if before = target then []
      else [.remove (pathOf location), .write (pathOf location) (.link target)]
    | some _ => [.remove (pathOf location), .write (pathOf location) (.link target)]
    | none => [.write (pathOf location) (.link target)]

/-- The edits that lead from the old entries of a directory to those that are in it now. -/
def Entries.editsFrom (location : List String) (olds : Entries) :
    List (String × Entry) → List Edit
  | [] => []
  | (name, entry) :: es =>
    Entry.editsFrom (location ++ [name]) (olds.get? name) entry ++ Entries.editsFrom location olds es

end

/-- The edits that lead from a volume to another. -/
def editsTo (v w : Volume) : List Edit :=
  Entry.editsFrom [] (some (.directory v.root)) (.directory w.root)

end CallGraph.Volume
