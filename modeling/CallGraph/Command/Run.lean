import CallGraph.Command.Help
import CallGraph.Watch.Service

/-!
Running commands on a file tree.

A command that ends has an exit code: 0 if it did its work, 1 if it failed, 2 if its arguments were
wrong. A command that watches does not end by itself; it leaves a service that goes on.
-/

namespace CallGraph

def programVersion : String := "0.1.0"

/-- What a command did, as far as its user is told at the end. -/
inductive Ending where
  /-- Nothing more is to be said. -/
  | done
  /-- A build ended, with or without a cache. -/
  | built (report : Report) (useCache : Bool)
  | failed (failure : Failure)
  /-- The arguments were wrong. -/
  | misused

structure Ran where
  volume : Volume
  events : List Event := []
  printed : String := ""
  ending : Ending := .done
  /-- The service that goes on, if the command watches. -/
  service : Option Service := none
  /-- The quiet period of the service, in milliseconds. -/
  debounceMs : Nat := 0
  /-- Whether all but the finest events are shown. -/
  verbose : Bool := false

namespace Command

/-- Indents the lines of a text after the first. -/
def hang (indent text : String) : String := text.replace "\n" ("\n" ++ indent)

def causeLines : List String → List String
  | [] => []
  | [cause] => ["", "Caused by:", "    " ++ hang "    " cause]
  | causes =>
    ["", "Caused by:"] ++ causes.zipIdx.map fun (cause, n) =>
      let number := Nat.repr n
      String.ofList (List.replicate (5 - number.length) ' ') ++ number ++ ": " ++
        hang "       " cause

def failureLines (f : Failure) : List String :=
  match f.reasons with
  | [] => []
  | first :: causes => ("Error: " ++ first) :: causeLines causes

/-- The lines about a build that took some milliseconds. -/
def reportLines (r : Report) (useCache : Bool) (elapsed : Nat) : List String :=
  let n := Nat.repr
  let time := n elapsed ++ "ms"
  if r.cacheHit then ["Cache hit: " ++ n r.files ++ " files, " ++ time]
  else
    ["Built " ++ n r.files ++ " files: " ++ n r.nodes ++ " nodes, " ++ n r.edges ++ " edges (" ++
        n r.highlighted ++ " highlighted)",
      "Parsed " ++ n r.rawNodes ++ " nodes, " ++ n r.rawEdges ++ " edges; collapsed " ++
        n r.collapsed ++ " call sites, " ++ n r.unmatched ++ " unmatched"] ++
    (if useCache && !r.persisted then ["Warning: result cache was not saved"] else []) ++
    ["Done in " ++ time]

/-- The job of an invocation, and the cache that it starts with. -/
def prepare (i : Invocation) (config : Config) (v : Volume) (strict useCache : Bool) :
    List Event × Job × Cache :=
  let (events, cache) :=
    if useCache then Cache.load v (config.cacheDirectory i.root) config.namespaceName else ([], {})
  let output := i.output.getD (i.root.join config.output)
  (events,
    { pipeline := .extractor strict useCache
      renderer := if output.text == "-" then .standardOutput else .file output
      inputs := if i.paths.isEmpty then [i.root] else i.paths
      extensions := config.extensions },
    cache)

def build (i : Invocation) (config : Config) (v : Volume) (moment : Cache.Moment) : Ran :=
  let useCache := !i.noCache
  let (events, job, cache) := prepare i config v (i.strict || config.strict) useCache
  let run := job.run ⟨v, cache⟩ moment
  { volume := run.session.volume
    events := events ++ run.events
    printed := run.printed
    ending :=
      match run.result with
      | .ok report => .built report useCache
      | .error failure => .failed failure }

/-- Builds and goes on watching. -/
def watch (i : Invocation) (config : Config) (v : Volume) (moment : Cache.Moment) : Ran :=
  let (events, job, cache) := prepare i config v config.strict true
  match Service.start job ⟨v, cache⟩ moment with
  | (more, .error failure) =>
    { volume := v, events := events ++ more, ending := .failed failure }
  | (more, .ok (service, run)) =>
    { volume := run.session.volume
      events := events ++ more ++ run.events ++ [run.summary]
      printed := run.printed
      service := some service
      debounceMs := config.debounceMs }

def cacheStats (i : Invocation) (config : Config) (v : Volume) : Ran :=
  let (events, cache) := Cache.load v (config.cacheDirectory i.root) config.namespaceName
  let place := (cache.path.map Path.text).getD "(in memory)"
  { volume := v
    events
    printed := "Cache file: " ++ place ++ "\nEntries:    " ++ Nat.repr cache.entries.size ++
      "\nSize:       " ++ Nat.repr cache.entries.byteSize ++ " bytes\n" }

def cacheClear (i : Invocation) (config : Config) (v : Volume) : Ran :=
  let directory := config.cacheDirectory i.root
  match Cache.clearDirectory v directory with
  | (w, none) => { volume := w }
  | (w, some fault) =>
    { volume := w, ending := .failed (.ofFault ("Failed to remove " ++ directory.text) fault) }

def runWith (i : Invocation) (config : Config) (v : Volume) (moment : Cache.Moment) : Ran :=
  match i.verb with
  | .build => build i config v moment
  | .watch => watch i config v moment
  | .cacheStats => cacheStats i config v
  | .cacheClear => cacheClear i config v
  | _ => { volume := v }

def configOf (i : Invocation) (v : Volume) : List Event × Except Failure Config :=
  match i.config with
  | some path => Config.ofFile v path
  | none => Config.load v i.root

/-- Runs an invocation. Only the version is told without a look at the configuration. -/
def runInvocation (i : Invocation) (v : Volume) (moment : Cache.Moment) : Ran :=
  if i.verb = .version then
    { volume := v, printed := "callfold v" ++ programVersion ++ "\n" }
  else
    match configOf i v with
    | (events, .error failure) => { volume := v, events, ending := .failed failure }
    | (events, .ok config) =>
      let ran := runWith i config v moment
      { ran with events := events ++ ran.events, verbose := i.verbose }

def run (arguments : List String) (v : Volume) (moment : Cache.Moment) : Ran :=
  match Invocation.ofArguments arguments with
  | .ok i => runInvocation i v moment
  | .error (.help verb) => { volume := v, printed := Help.text verb }
  | .error .usage => { volume := v, ending := .misused }

end Command

namespace Ran

def exitCode (r : Ran) : Nat :=
  match r.ending with
  | .failed _ => 1
  | .misused => 2
  | _ => 0

/-- What the user is told at the end of a command that took some milliseconds. -/
def closingLines (r : Ran) (elapsed : Nat) : List String :=
  match r.ending with
  | .done => []
  | .built report useCache => Command.reportLines report useCache elapsed
  | .failed failure => Command.failureLines failure
  | .misused => ["error: invalid arguments", "", "For more information, try '--help'."]

end Ran

end CallGraph
