import CallGraph.Config
import CallGraph.Volume.Edit

/-!
What a watcher watches, and which notices it passes on.

A directory is watched with all that is below it. A file is watched through the directory that it
stands in, so that saving it by a rename is seen; notices for its siblings arrive and are dropped.
Whether a path is in scope is decided on canonical paths. A path that is gone has none; then the
canonical path of its parent counts, with the name below it.
-/

namespace CallGraph

open Volume (Change Signal)

/-- A directory that notices come from. -/
structure Watch where
  location : List String
  /-- The path that notices are reported under. -/
  path : Path
  /-- Directories below are watched too. -/
  deep : Bool
  deriving DecidableEq, Repr

/-- Whether notices from a directory come through a watch. -/
def Watch.covers (watch : Watch) (directory : List String) : Bool :=
  watch.location == directory || watch.deep && watch.location.isPrefixOf directory

/-- A change that was noticed, with the path that it is reported under. -/
structure Notice where
  change : Change
  path : Path
  deriving DecidableEq, Repr

structure Watcher where
  extensions : List String
  files : List Path := []
  directories : List Path := []
  watches : List Watch := []

namespace Watcher

/-- The form of a path that decides about scope. -/
def normalize (v : Volume) (p : Path) : Path :=
  match v.canonical p with
  | .ok q => q
  | .error _ =>
    match p.parent?, p.fileName? with
    | some parent, some name =>
      if parent.text == "" then p
      else
        match v.canonical parent with
        | .ok q => q.child name
        | .error _ => p
    | _, _ => p

/-- Whether a path is a watched file or lies below a watched directory. -/
def isWatching (w : Watcher) (v : Volume) (p : Path) : Bool :=
  let q := normalize v p
  w.files.any q.same || w.directories.any q.startsWith

/-- A path from the root, not otherwise changed. -/
def absolute (v : Volume) (p : Path) : Path := (Volume.pathOf v.home).join p

/-- Starts to receive notices from a directory. -/
def receive (w : Watcher) (v : Volume) (p : Path) (deep : Bool) : Except Failure Watcher :=
  let path := absolute v p
  let failure (fault : Fault) : Failure :=
    .plain (fault.message ++ " about [" ++ Text.quote path.text ++ "]")
  match v.locate true p with
  | .ok (.taken location _) => .ok { w with watches := w.watches ++ [⟨location, path, deep⟩] }
  | .ok (.free ..) => .error (failure .notFound)
  | .error fault => .error (failure fault)

/-- Watches a directory with all that is below it. -/
def watchDirectory (w : Watcher) (v : Volume) (p : Path) : Except Failure Watcher := do
  let w ← w.receive v p true
  return { w with directories := w.directories ++ [normalize v p] }

/-- The directory that a file is watched through. -/
def directoryOf (p : Path) : Path :=
  match p.parent? with
  | some parent => if parent.text == "" then ⟨"."⟩ else parent
  | none => ⟨"."⟩

/-- Watches a file through the directory that it stands in. -/
def watchFile (w : Watcher) (v : Volume) (p : Path) : Except Failure Watcher := do
  let w ← w.receive v (directoryOf p) false
  return { w with files := w.files ++ [normalize v p] }

/-! Notices. -/

/-- Names of directories that nothing is reported from. -/
def ignoredNames : List String := ["target", ".git", cacheDirectoryName]

def isIgnored (p : Path) : Bool := p.components.any fun c => ignoredNames.contains c.text

/-- Whether a notice is passed on: for a path that is not ignored and has one of the extensions. -/
def passes (w : Watcher) (n : Notice) : Bool := !isIgnored n.path && n.path.hasExtension w.extensions

/-- The path that a location is reported under, if it is; the last watch decides. -/
def reportedPath? (w : Watcher) (location : List String) : Option Path :=
  (w.watches.reverse.find? fun watch => watch.covers location.dropLast).map fun watch =>
    (location.drop watch.location.length).foldl Path.child watch.path

/-- The notices of a signal, before any is dropped. A rename between watched directories is told
from both ends, and then as a whole. -/
def noticesOf (w : Watcher) : Signal → List Notice
  | .single change location =>
    ((w.reportedPath? location).map fun p => (⟨change, p⟩ : Notice)).toList
  | .moved source target =>
    match w.reportedPath? source, w.reportedPath? target with
    | some old, some new =>
      [⟨.modified, old⟩, ⟨.modified, new⟩, ⟨.modified, old⟩, ⟨.modified, new⟩]
    | some old, none => [⟨.modified, old⟩]
    | none, some new => [⟨.modified, new⟩]
    | none, none => []

/-- The notices of signals that are passed on. -/
def forward (w : Watcher) (signals : List Signal) : List Notice :=
  (signals.flatMap w.noticesOf).filter w.passes

def inScope (w : Watcher) (v : Volume) (queue : List Notice) : List Notice :=
  queue.filter fun n => w.isWatching v n.path

end Watcher

end CallGraph
