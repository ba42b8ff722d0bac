import CallGraph.Failure
import CallGraph.Event
import CallGraph.Volume

/-!
Where the text of a finished build goes.
-/

namespace CallGraph

/-- A place for the text of a build. -/
inductive Renderer where
  /-- A file, whose directory is made if need be. -/
  | file (path : Path)
  /-- The standard output of the program. -/
  | standardOutput

structure Rendered where
  volume : Volume
  events : List Event := []
  /-- What was printed. -/
  printed : String := ""
  result : Except Failure Unit := .ok ()

namespace Renderer

/-- Makes the directory that a file stands in. -/
def prepare (v : Volume) (path : Path) : Volume × Option Failure :=
  match path.parent? with
  | none => (v, none)
  | some parent =>
    if parent.text == "" then (v, none)
    else
      let (w, fault) := v.createDirectories parent
      (w, fault.map (.ofFault ("Failed to create " ++ parent.text)))

/-- Hands a text over. -/
def render (r : Renderer) (v : Volume) (dot : String) : Rendered :=
  match r with
  | .standardOutput => { volume := v, printed := dot ++ "\n" }
  | .file path =>
    match prepare v path with
    | (w, some failure) => { volume := w, result := .error failure }
    | (w, none) =>
      match w.writeText path dot with
      | .error fault =>
        { volume := w, result := .error (.ofFault ("Failed to write " ++ path.text) fault) }
      | .ok u => { volume := u, events := [.graphWritten path.text] }

end Renderer

end CallGraph
