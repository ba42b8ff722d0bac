import CallGraph.Config
import CallGraph.Json.Record
import CallGraph.Json.Writer
import CallGraph.TextMap
import CallGraph.Volume.Replace

/-!
The cache of results: from the exact text of all sources of a build to the text that it produced.

A namespace of the cache is one JSON file in a directory. It is loaded once; a file that is missing
or not usable counts as empty, and the reason is reported. Insertions change only the memory.
Persisting writes the whole map and replaces the file at once, so that a failure leaves the old file
as it was.
-/

namespace CallGraph

/-- A cache: its entries, and the file that stores them, if any. -/
structure Cache where
  entries : TextMap := {}
  path : Option Path := none
  deriving DecidableEq

namespace Cache

/-- The file of a namespace. -/
def filePath (directory : Path) (namespaceName : String) : Path :=
  directory.child (namespaceName ++ ".cache")

/-! The file format. -/

def fileFields : List String := ["version", "saved_at", "entries"]

def write (savedAt : String) (entries : TextMap) : String :=
  String.ofList (Json.writeObject (fileFields.zip [
    Json.writeNat cacheVersion.toNat,
    Json.writeText savedAt,
    Json.writeObject (entries.toList.map fun e => (e.1, Json.writeText e.2))]))

def readPair? (m : Option String × Json.Value) : Option (String × String) := do
  return (← m.1, ← Json.text? m.2)

/-- The entries in a value. A key that comes twice has its last value. -/
def readEntries? : Json.Value → Option TextMap
  | .object members =>
    (members.mapM readPair?).map TextMap.ofList
  | _ => none

/-- The version and the entries in the text of a cache file. -/
def readFile? (text : String) : Option (UInt32 × TextMap) :=
  match (Json.read text).bind (Json.fields? fileFields) with
  | some [some version, some savedAt, some entries] => do
    let version ← Json.natBelow? (Nat.pow 2 32) version
    let _ ← Json.text? savedAt
    return (version.toUInt32, ← readEntries? entries)
  | _ => none

/-- The entries in the text of a cache file of the right version. -/
def read (text : String) : Except Error TextMap :=
  match readFile? text with
  | none => .error .malformed
  | some (version, entries) =>
    if version = cacheVersion then .ok entries else .error (.version version)

/-! Storage. -/

def readStored (v : Volume) (path : Path) : Except Error TextMap :=
  match v.readText path with
  | .error fault => .error (.storage fault)
  | .ok text => read text

def load (v : Volume) (directory : Path) (namespaceName : String) : List Event × Cache :=
  let path := filePath directory namespaceName
  if v.contains path then
    match readStored v path with
    | .ok entries => ([.cacheLoaded entries.size path.text], ⟨entries, some path⟩)
    | .error e => ([.cacheIgnored path.text e], ⟨{}, some path⟩)
  else ([.cacheAbsent path.text], ⟨{}, some path⟩)

/-- The value that was stored for exactly this key. -/
def lookup (c : Cache) (key : String) : Option String := c.entries.get? key

def insert (c : Cache) (key value : String) : Cache :=
  { c with entries := c.entries.insert key value }

def clear (c : Cache) : Cache := { c with entries := {} }

def directoryOf (path : Path) : Path :=
  match path.parent? with
  | some parent => if parent.text == "" then ⟨"."⟩ else parent
  | none => ⟨"."⟩

def ensureDirectory (v : Volume) (directory : Path)
    (refusal? : Path → Option Fault := fun _ => none) : Volume × Option Fault :=
  if v.contains directory then (v, none) else v.createDirectories directory refusal?

def clearDirectory (v : Volume) (directory : Path) : Volume × Option Fault :=
  if v.contains directory then v.removeTree directory else (v, none)

/-- What persisting leads to. Directories that were made on the way stay even when a later step
fails. -/
structure Persisted where
  volume : Volume
  events : List Event := []
  result : Except Error Unit

/-- When a cache is persisted, and what the system adds to it. -/
structure Moment extends Volume.Conditions where
  savedAt : String

/-- Writes all entries to the file of the cache. A cache without a file has nothing to do. -/
def persist (c : Cache) (v : Volume) (moment : Moment) : Persisted :=
  match c.path with
  | none => ⟨v, [], .ok ()⟩
  | some path =>
    let directory := directoryOf path
    match ensureDirectory v directory (fun p => moment.refusal? (.makeDirectory p)) with
    | (w, some fault) => ⟨w, [], .error (.storage fault)⟩
    | (w, none) =>
      match w.replaceText moment.toConditions directory path (write moment.savedAt c.entries) with
      | (u, some fault) => ⟨u, [], .error (.storage fault)⟩
      | (u, none) => ⟨u, [.persisted c.entries.size path.text], .ok ()⟩

end Cache

end CallGraph
