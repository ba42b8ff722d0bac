import CallGraph.Job
import CallGraph.Watch.Scope

/-!
A service that builds again when watched sources change.

It watches every input of a job and builds once. After that it waits for notices. Notices that come
within the quiet period are one batch, and each batch with a notice in scope leads to one build. A
build that fails is reported and the service goes on.
-/

namespace CallGraph

structure Service where
  job : Job
  session : Session
  watcher : Watcher
  /-- Notices that have not been looked at. -/
  queue : List Notice := []
  /-- The text that was rendered last. -/
  shown : Option String := none

namespace Service

open Volume (Edit Edited)

def watchInput (v : Volume) (w : Watcher) (input : Path) : List Event × Except Failure Watcher :=
  if v.isDirectory input then ([.watchingDirectory input.text], w.watchDirectory v input)
  else ([.watchingFile input.text], w.watchFile v input)

def watchInputs (v : Volume) (w : Watcher) : List Path → List Event × Except Failure Watcher
  | [] => ([], .ok w)
  | input :: inputs =>
    match watchInput v w input with
    | (events, .error failure) => (events, .error failure)
    | (events, .ok w) =>
      let (more, result) := watchInputs v w inputs
      (events ++ more, result)

def rebuild (s : Service) (moment : Cache.Moment) : Service × JobRun :=
  let run := s.job.run s.session moment
  let shown := match run.result with
    | .ok _ => run.rendered
    | .error _ => s.shown
  ({ s with session := run.session, shown }, run)

/-- Starts a service: watches the inputs of a job, then builds. -/
def start (job : Job) (session : Session) (moment : Cache.Moment) :
    List Event × Except Failure (Service × JobRun) :=
  match watchInputs session.volume { extensions := job.extensions } job.inputs with
  | (events, .error failure) => (events, .error failure)
  | (events, .ok watcher) =>
    let (service, run) := rebuild { job, session, watcher } moment
    (events, .ok (service, run))

/-- Carries out an edit of the file tree and queues what is noticed of it. -/
def edit (s : Service) (e : Edit) : Service × Edited :=
  let edited := s.session.volume.edit e
  ({ s with
      session := { s.session with volume := edited.volume }
      queue := s.queue ++ s.watcher.forward edited.signals }, edited)

/-- Takes the queue as one batch, and builds if any of its notices is in scope. -/
def settle (s : Service) (moment : Cache.Moment) : Service × Option JobRun :=
  let due := s.watcher.inScope s.session.volume s.queue
  let s := { s with queue := [] }
  if due.isEmpty then (s, none)
  else
    let (t, run) := s.rebuild moment
    (t, some run)

end Service

end CallGraph
