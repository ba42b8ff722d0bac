import CallGraph.Event
import CallGraph.Failure
import CallGraph.Ignore.Rules

/-!
From inputs to sources.

An input that is a file is a source, whatever its extension and whatever rules say. An input that is
a directory stands for the files in it that have one of the extensions and are not ignored, in the
order of their paths. A path that comes twice counts once. What is in a directory is listed by a
walker, which may do so in any order.
-/

namespace CallGraph.Sources

/-- Whether one path is not after another. -/
def notAfter (p q : Path) : Bool := !q.lt p

/-- Lists the entries of a directory, by their paths, in any order. -/
abbrev Walker := Path → List Path

/-- The walker that respects ignore rules. Directories are entered and not listed. A dash stands for
the standard input, which holds no files. -/
def walked (v : Volume) : Walker := fun directory =>
  if directory.same ⟨"-"⟩ then []
  else
    match v.locate true directory with
    | .ok (.taken location _) =>
      (Ignore.walk v location).map fun names => names.foldl Path.child directory
    | _ => []

/-- The sources among the entries of a directory, in the order of their paths. -/
def select (v : Volume) (extensions : List String) (entries : List Path) : List Path :=
  (entries.filter fun p => v.isFile p && p.hasExtension extensions).mergeSort notAfter

/-- The sources that an input stands for; none if there is no such input. -/
def ofInput? (walker : Walker) (v : Volume) (extensions : List String) (input : Path) :
    Option (List Path) :=
  if v.isFile input then some [input]
  else if v.isDirectory input then some (select v extensions (walker input))
  else none

/-- The sources that inputs stand for, one after the other. -/
def expand (walker : Walker) (v : Volume) (extensions : List String) :
    List Path → Except Failure (List Path)
  | [] => .ok []
  | input :: inputs =>
    match ofInput? walker v extensions input with
    | none => .error (.plain ("Path does not exist: " ++ input.text))
    | some paths =>
      match expand walker v extensions inputs with
      | .ok rest => .ok (paths ++ rest)
      | .error failure => .error failure

/-- Keeps the first of paths that are the same, after those that were seen. -/
def distinctFrom (seen : List Path) : List Path → List Path
  | [] => []
  | p :: ps =>
    if seen.any p.same then distinctFrom seen ps else p :: distinctFrom (p :: seen) ps

/-- Collects the sources that inputs stand for, with a walker for the directories among them. -/
def collectWith (walker : Walker) (v : Volume) (inputs : List Path) (extensions : List String) :
    List Event × Except Failure (List Path) :=
  match expand walker v extensions inputs with
  | .error failure => ([], .error failure)
  | .ok paths =>
    let paths := distinctFrom [] paths
    ([.sourcesCollected paths.length], .ok paths)

def collect (v : Volume) (inputs : List Path) (extensions : List String) :
    List Event × Except Failure (List Path) :=
  collectWith (walked v) v inputs extensions

def read (v : Volume) : List Path → Except Failure (List SourceFile)
  | [] => .ok []
  | p :: ps =>
    match v.readText p with
    | .error fault => .error (.ofFault ("Failed to read " ++ p.text) fault)
    | .ok content =>
      match read v ps with
      | .ok files => .ok (⟨p, content⟩ :: files)
      | .error failure => .error failure

end CallGraph.Sources
