import CallGraph.Pipeline
import CallGraph.Render
import CallGraph.Sources

/-!
One full build from files to output: collect, read, build, render.

A job that fails before it renders has changed nothing. One that fails while it renders has built and
stored its text already.
-/

namespace CallGraph

/-- What to build, how, and where the text goes. The walker lists the directories among the
inputs. -/
structure Job where
  pipeline : Pipeline
  renderer : Renderer
  inputs : List Path
  extensions : List String
  walker : Volume → Sources.Walker := Sources.walked

structure JobRun where
  session : Session
  events : List Event
  /-- The text that was handed to the renderer. -/
  rendered : Option String := none
  /-- What was printed. -/
  printed : String := ""
  result : Except Failure Report

/-- What a watcher says about a job that it ran. -/
def JobRun.summary (r : JobRun) : Event :=
  match r.result with
  | .ok report => .rebuilt report.nodes report.edges report.cacheHit
  | .error failure => .rebuildFailed failure.reasons

namespace Job

def sources (j : Job) (v : Volume) : List Event × Except Failure (List SourceFile) :=
  match Sources.collectWith (j.walker v) v j.inputs j.extensions with
  | (events, .error failure) => (events, .error failure)
  | (events, .ok paths) => (events, Sources.read v paths)

/-- Hands the output of a build to the renderer. -/
def deliver (j : Job) (s : Session) (events : List Event) (output : Output) : JobRun :=
  let rendered := j.renderer.render s.volume output.dot
  { session := { s with volume := rendered.volume }
    events := events ++ rendered.events
    rendered := some output.dot
    printed := rendered.printed
    result := rendered.result.map fun _ => output.report }

def run (j : Job) (s : Session) (moment : Cache.Moment) : JobRun :=
  match j.sources s.volume with
  | (events, .error failure) => { session := s, events, result := .error failure }
  | (events, .ok files) =>
    let built := j.pipeline.build s moment files
    match built.result with
    | .error e =>
      { session := built.session
        events := events ++ built.events
        result := .error ⟨["Build failed"], .error e⟩ }
    | .ok output => j.deliver built.session (events ++ built.events) output

end Job

end CallGraph
