import CallGraph.Error
import CallGraph.Path

/-!
A file tree as a value.

A volume holds files, directories and symbolic links below one root, and a home directory where
relative paths start. An operation takes a path, finds the spot it names and returns the volume
after the operation, or the fault that stopped it. A fault leaves the volume as it was; only the
removal of a tree and the making of several directories may stop half way.

Finding a spot follows links, at most `linkLimit` of them. Every segment before the last must name a
directory, and so must the last if anything, even an empty segment, stands after it.
-/

namespace CallGraph

namespace Volume

/-- What a file holds: a text, or bytes that are no text. -/
inductive Content where
  | text (value : String)
  | binary (bytes : List UInt8)
  deriving DecidableEq, Repr

/-- The content that some bytes are. -/
def Content.ofBytes (bytes : List UInt8) : Content :=
  match String.fromUTF8? ⟨bytes.toArray⟩ with
  | some s => .text s
  | none => .binary bytes

inductive Entry where
  | file (content : Content)
  | directory (entries : List (String × Entry))
  | link (target : Path)

abbrev Entries := List (String × Entry)

namespace Entries

def get? (es : Entries) (name : String) : Option Entry :=
  (es.find? fun e => e.1 == name).map Prod.snd

def set : Entries → String → Entry → Entries
  | [], name, entry => [(name, entry)]
  | e :: es, name, entry => if e.1 == name then (name, entry) :: es else e :: set es name entry

def erase (es : Entries) (name : String) : Entries := es.filter fun e => e.1 != name

/-- The entry at a location below a directory. -/
def at? : Entries → List String → Option Entry
  | es, [] => some (.directory es)
  | es, [name] => es.get? name
  | es, name :: rest =>
    match es.get? name with
    | some (.directory sub) => at? sub rest
    | _ => none

/-- Changes the entry at a location below a directory; nothing happens if its parent is none. -/
def alter (f : Option Entry → Option Entry) : Entries → List String → Entries
  | es, [] => es
  | es, [name] =>
    match f (es.get? name) with
    | some entry => es.set name entry
    | none => es.erase name
  | es, name :: rest =>
    match es.get? name with
    | some (.directory sub) => es.set name (.directory (alter f sub rest))
    | _ => es

end Entries

def Entry.isDirectory : Entry → Bool
  | .directory _ => true
  | _ => false

def Entry.isFile : Entry → Bool
  | .file _ => true
  | _ => false

end Volume

/-- A file tree and the location where relative paths start. A location is the list of names on the
way from the root. -/
structure Volume where
  root : Volume.Entries := []
  home : List String := []

namespace Volume

/-- What a path names: an entry at a location, or a free name in a directory. `slash` tells whether
anything stands after the free name. -/
inductive Spot where
  | taken (location : List String) (entry : Entry)
  | free (directory : List String) (name : String) (slash : Bool)

/-- How many links are followed on the way to one spot. -/
def linkLimit : Nat := 40

/-- How many bytes a name may have. -/
def nameLimit : Nat := 255

/-- How many bytes a path may have. -/
def pathLimit : Nat := 4095

def entryAt (v : Volume) (location : List String) : Option Entry := v.root.at? location

def isDirectoryAt (v : Volume) (location : List String) : Bool :=
  ((v.entryAt location).map Entry.isDirectory).getD false

/-- Walks along segments from a location. A link is handed to `follow`, together with the segments
that are left; one at the end only if `last` says so. -/
def walkWith (v : Volume) (follow : List String → List String → Except Fault Spot) (last : Bool) :
    List String → List String → Except Fault Spot
  | [], loc =>
    match v.entryAt loc with
    | some entry => .ok (.taken loc entry)
    | none => .error .notFound
  | s :: rest, loc =>
    if !v.isDirectoryAt loc then .error .notADirectory
    else if Path.isIdle s then walkWith v follow last rest loc
    else if s == ".." then walkWith v follow last rest loc.dropLast
    else if s.utf8ByteSize > nameLimit then .error .nameTooLong
    else
      match v.entryAt (loc ++ [s]) with
      | none =>
        if rest.all Path.isIdle then .ok (.free loc s !rest.isEmpty) else .error .notFound
      | some (.link target) =>
        if rest.isEmpty && !last then .ok (.taken (loc ++ [s]) (.link target))
        else follow (target.segments ++ rest) (if target.isAbsolute then [] else loc)
      | some _ => walkWith v follow last rest (loc ++ [s])

/-- Walks along segments from a location, following a number of links. -/
def walk (v : Volume) (last : Bool) : Nat → List String → List String → Except Fault Spot
  | 0, _, _ => .error .linkLoop
  | n + 1, segments, loc => walkWith v (walk v last n) last segments loc

/-- The spot that a path names. `last` tells whether a link at the end is followed. -/
def locate (v : Volume) (last : Bool) (p : Path) : Except Fault Spot :=
  if p.text.toList.contains '\x00' then .error .nulInPath
  else if p.text == "" then .error .notFound
  else if p.text.utf8ByteSize > pathLimit then .error .nameTooLong
  else walk v last (linkLimit + 1) p.segments (if p.isAbsolute then [] else v.home)

/-- The entry that a path names, links followed. -/
def entry? (v : Volume) (p : Path) : Option Entry :=
  match v.locate true p with
  | .ok (.taken _ entry) => some entry
  | _ => none

def contains (v : Volume) (p : Path) : Bool := (v.entry? p).isSome

def isFile (v : Volume) (p : Path) : Bool := ((v.entry? p).map Entry.isFile).getD false

def isDirectory (v : Volume) (p : Path) : Bool := ((v.entry? p).map Entry.isDirectory).getD false

/-- The absolute path of a location. -/
def pathOf (location : List String) : Path := ⟨"/" ++ String.intercalate "/" location⟩

/-- The absolute path, free of links, of what a path names. -/
def canonical (v : Volume) (p : Path) : Except Fault Path :=
  match v.locate true p with
  | .ok (.taken loc _) => .ok (pathOf loc)
  | .ok (.free ..) => .error .notFound
  | .error fault => .error fault

def readContent (v : Volume) (p : Path) : Except Fault Content :=
  match v.locate true p with
  | .ok (.taken _ (.file content)) => .ok content
  | .ok (.taken ..) => .error .isADirectory
  | .ok (.free ..) => .error .notFound
  | .error fault => .error fault

def readText (v : Volume) (p : Path) : Except Fault String :=
  match v.readContent p with
  | .ok (.text s) => .ok s
  | .ok (.binary _) => .error .notUtf8
  | .error fault => .error fault

def put (v : Volume) (location : List String) (entry : Entry) : Volume :=
  { v with root := v.root.alter (fun _ => some entry) location }

def drop (v : Volume) (location : List String) : Volume :=
  { v with root := v.root.alter (fun _ => none) location }

/-- Writes a file, a new one or over one that is there. -/
def writeContent (v : Volume) (p : Path) (content : Content) : Except Fault Volume :=
  match v.locate true p with
  | .ok (.taken loc (.file _)) => .ok (v.put loc (.file content))
  | .ok (.taken ..) => .error .isADirectory
  | .ok (.free dir name slash) =>
    if slash then .error .isADirectory else .ok (v.put (dir ++ [name]) (.file content))
  | .error fault => .error fault

def writeText (v : Volume) (p : Path) (s : String) : Except Fault Volume :=
  v.writeContent p (.text s)

def createDirectory (v : Volume) (p : Path) : Except Fault Volume :=
  match v.locate false p with
  | .ok (.taken ..) => .error .alreadyExists
  | .ok (.free dir name _) => .ok (v.put (dir ++ [name]) (.directory []))
  | .error fault => .error fault

def createLink (v : Volume) (p target : Path) : Except Fault Volume :=
  match v.locate false p with
  | .ok (.taken ..) => .error .alreadyExists
  | .ok (.free dir name slash) =>
    if slash then .error .notFound else .ok (v.put (dir ++ [name]) (.link target))
  | .error fault => .error fault

/-- The outcome of a call that the system may refuse although the tree allows it. -/
def barred {α : Type} (refusal : Option Fault) (outcome : Except Fault α) : Except Fault α :=
  match outcome, refusal with
  | .ok _, some fault => .error fault
  | outcome, _ => outcome

/-- Makes a directory, unless a path names one already. -/
def ensureDirectory (v : Volume) (refusal : Option Fault) (p : Path) : Except Fault Volume :=
  match barred refusal (v.createDirectory p) with
  | .ok w => .ok w
  | .error fault => if v.isDirectory p then .ok v else .error fault

/-- What an operation leads to that changes all or nothing: the volume after it, and the fault that
stopped it. -/
def settle (v : Volume) : Except Fault Volume → Volume × Option Fault
  | .ok w => (w, none)
  | .error fault => (v, some fault)

/-- Makes a directory and those above it that are not there. The number bounds how many there are,
and `refusal?` tells which of them the system refuses to make. -/
def createDirectoriesFrom (refusal? : Path → Option Fault) : Nat → Volume → Path →
    Volume × Option Fault
  | 0, v, _ => (v, some .notFound)
  | n + 1, v, p =>
    if p.text == "" then (v, none)
    else
      match v.ensureDirectory (refusal? p) p with
      | .ok w => (w, none)
      | .error .notFound =>
        match p.parent? with
        | none => (v, some .notFound)
        | some parent =>
          match createDirectoriesFrom refusal? n v parent with
          | (w, none) => w.settle (w.ensureDirectory (refusal? p) p)
          | (w, some fault) => (w, some fault)
      | .error fault => (v, some fault)

/-- Makes a directory and those above it that are not there. Those that were made stay even when a
later one cannot be made. -/
def createDirectories (v : Volume) (p : Path) (refusal? : Path → Option Fault := fun _ => none) :
    Volume × Option Fault :=
  createDirectoriesFrom refusal? (p.segments.length + 1) v p

/-- The last segment of a path that is not empty. -/
def lastSegment? (p : Path) : Option String := (p.segments.filter (· != "")).getLast?

def removeFile (v : Volume) (p : Path) : Except Fault Volume :=
  match v.locate false p with
  | .ok (.taken _ (.directory _)) => .error .isADirectory
  | .ok (.taken loc _) => .ok (v.drop loc)
  | .ok (.free ..) => .error .notFound
  | .error fault => .error fault

/-- Removes a directory with all that is in it, or a link. A directory that is named by a dot or two
is emptied and then stays. -/
def removeTree (v : Volume) (p : Path) : Volume × Option Fault :=
  match v.locate false p with
  | .ok (.taken loc (.directory _)) =>
    if lastSegment? p == some "." then (v.put loc (.directory []), some .invalidInput)
    else if lastSegment? p == some ".." then (v.put loc (.directory []), some .directoryNotEmpty)
    else (v.drop loc, none)
  | .ok (.taken loc (.link _)) => (v.drop loc, none)
  | .ok (.taken ..) => (v, some .notADirectory)
  | .ok (.free ..) => (v, some .notFound)
  | .error fault => (v, some fault)

/-- Removes a file, a link or a directory with all that is in it. -/
def remove (v : Volume) (p : Path) : Volume × Option Fault :=
  match v.locate false p with
  | .ok (.taken _ (.directory _)) => v.removeTree p
  | _ => v.settle (v.removeFile p)

/-- Whether a path names the directory that it stands in. -/
def isDotted (p : Path) : Bool := lastSegment? p == some "." || lastSegment? p == some ".."

/-- Gives an entry another name. A file replaces a file, and a directory an empty directory. -/
def rename (v : Volume) (source target : Path) : Except Fault Volume :=
  match v.locate false source, v.locate false target with
  | .error fault, _ => .error fault
  | .ok (.free ..), _ => .error .notFound
  | .ok (.taken ..), .error fault => .error fault
  | .ok (.taken old entry), .ok (.taken new other) =>
    if isDotted source || isDotted target then .error .busy
    else if old == new then .ok v
    else
      match entry, other with
      | .directory _, .directory entries =>
        if old.isPrefixOf new then .error .invalidInput
        else if !entries.isEmpty then .error .directoryNotEmpty
        else .ok ((v.drop old).put new entry)
      | .directory _, _ => .error .notADirectory
      | _, .directory _ => .error .isADirectory
      | _, _ => .ok ((v.drop old).put new entry)
  | .ok (.taken old entry), .ok (.free dir name slash) =>
    if isDotted source then .error .busy
    else if entry.isDirectory && old.isPrefixOf dir then .error .invalidInput
    else if slash && !entry.isDirectory then .error .notADirectory
    else .ok ((v.drop old).put (dir ++ [name]) entry)

mutual

/-- The paths of all entries of a directory whose own path is given. A directory ends in a slash. -/
def Entry.paths (above : String) : String → Entry → List String
  | name, .directory entries =>
    (above ++ name ++ "/") :: Entries.paths (above ++ name ++ "/") entries
  | name, _ => [above ++ name]

def Entries.paths (above : String) : List (String × Entry) → List String
  | [] => []
  | (name, entry) :: es => Entry.paths above name entry ++ Entries.paths above es

end

/-- All paths below the home directory, in the order of their characters. -/
def listing (v : Volume) : List String :=
  match v.entryAt v.home with
  | some (.directory entries) => (Entries.paths "" entries).mergeSort fun a b => !(b < a)
  | _ => []

end Volume

end CallGraph
