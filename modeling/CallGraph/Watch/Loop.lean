import CallGraph.Machine
import CallGraph.Watch.Service

/-!
The loop of a service, step by step.

`Service.settle` takes a batch at once. Here a batch is taken notice by notice, so that anything can
happen in between: the file tree changes, notifications come, the quiet period ends, the queue is
closed. The loop builds, waits for a notice in scope, settles until the quiet period ends, and builds
again. It looks at a notice when it takes it, so scope is decided by the file tree of that moment.
-/

namespace CallGraph

open Volume (Change Signal)

/-- What the system tells a watcher: a change and the paths that it is about. There is no change if
something else was done with them. -/
structure Notification where
  change? : Option Change
  paths : List Path
  deriving DecidableEq, Repr

namespace Watcher

/-- Queues a notice for each path that is passed on. -/
def enqueue (w : Watcher) (change : Change) : List Notice → List Path → List Notice
  | queue, [] => queue
  | queue, p :: ps =>
    if w.passes ⟨change, p⟩ then enqueue w change (queue ++ [⟨change, p⟩]) ps
    else enqueue w change queue ps

/-- The notifications that tell a signal. -/
def notificationsOf (w : Watcher) : Signal → List Notification
  | .single change location =>
    ((w.reportedPath? location).map fun p => (⟨some change, [p]⟩ : Notification)).toList
  | .moved source target =>
    match w.reportedPath? source, w.reportedPath? target with
    | some old, some new =>
      [⟨some .modified, [old]⟩, ⟨some .modified, [new]⟩, ⟨some .modified, [old, new]⟩]
    | some old, none => [⟨some .modified, [old]⟩]
    | none, some new => [⟨some .modified, [new]⟩]
    | none, none => []

end Watcher

namespace Loop

inductive Phase where
  | rebuilding
  /-- Nothing has come since the last build. -/
  | waiting
  /-- Something has come, and more may come. -/
  | settling
  | stopped
  deriving DecidableEq, Repr

/-- How a build ended. -/
inductive Outcome where
  | built (report : Report)
  | failed (failure : Failure)
  /-- The task that it ran in did not return. -/
  | aborted

/-- How the result of a job counts. -/
def Outcome.ofResult : Except Failure Report → Outcome
  | .ok report => .built report
  | .error failure => .failed failure

inductive Action where
  | notify (n : Notification)
  /-- The file tree is another one. -/
  | change (v : Volume)
  /-- No more notifications will come. -/
  | close
  /-- The loop takes a notice from the queue. -/
  | take
  /-- The quiet period is over. -/
  | expire
  /-- The loop finds the queue empty and closed. -/
  | hangUp
  | finish (outcome : Outcome)

inductive Deed where
  /-- It took a notice in scope, which ends the waiting. -/
  | detected (n : Notice)
  /-- It took a notice in scope that belongs to the same batch. -/
  | coalesced (n : Notice)
  /-- It took a notice that is not in scope. -/
  | dropped (n : Notice)
  | started
  | finished (outcome : Outcome)
  | stopped

end Loop

/-- The state of the loop, with the file tree that it looks at. -/
structure Loop where
  watcher : Watcher
  volume : Volume
  queue : List Notice := []
  closed : Bool := false
  phase : Loop.Phase

namespace Loop

/-- The start: the inputs are watched and the first build is on. Something may have come already. -/
def start (watcher : Watcher) (volume : Volume) (queue : List Notice) : Loop :=
  { watcher, volume, queue, phase := .rebuilding }

/-- Queues what is passed on of a notification. -/
def receive (l : Loop) (n : Notification) : Loop :=
  match n.change? with
  | some change => { l with queue := l.watcher.enqueue change l.queue n.paths }
  | none => l

/-- Takes one notice, if the loop is at it and there is one. -/
def take (l : Loop) : Option (Loop × List Deed) :=
  match l.queue with
  | [] => none
  | n :: rest =>
    let inScope := l.watcher.isWatching l.volume n.path
    match l.phase with
    | .waiting =>
      if inScope then some ({ l with queue := rest, phase := .settling }, [.detected n])
      else some ({ l with queue := rest }, [.dropped n])
    | .settling =>
      some ({ l with queue := rest }, [if inScope then .coalesced n else .dropped n])
    | _ => none

/-- Begins to build, if the loop is settling. -/
def build (l : Loop) : Option (Loop × List Deed) :=
  match l.phase with
  | .settling => some ({ l with phase := .rebuilding }, [.started])
  | _ => none

/-- One thing that happens, and what the loop does, if it can happen now. -/
def step (l : Loop) : Action → Option (Loop × List Deed)
  | .notify n => if l.closed then none else some (l.receive n, [])
  | .change v => some ({ l with volume := v }, [])
  | .close => some ({ l with closed := true }, [])
  | .take => l.take
  | .expire => l.build
  | .hangUp =>
    if l.closed && l.queue.isEmpty then
      match l.phase with
      | .waiting => some ({ l with phase := .stopped }, [.stopped])
      | _ => l.build
    else none
  | .finish outcome =>
    match l.phase with
    | .rebuilding => some ({ l with phase := .waiting }, [.finished outcome])
    | _ => none

/-- Things that happen one after the other, and all that the loop does. -/
abbrev run (l : Loop) (as : List Action) : Option (Loop × List Deed) := Machine.run step l as

end Loop

def Service.loop (s : Service) : Loop :=
  { watcher := s.watcher, volume := s.session.volume, queue := s.queue, phase := .waiting }

end CallGraph
