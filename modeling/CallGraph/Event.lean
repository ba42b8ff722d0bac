import CallGraph.Error
import CallGraph.Text.Quoted

/-!
What a computation reports while it runs.

Computations return the events they emitted, in order, next to their result. `Event.line` is the
one place where an event becomes text.
-/

namespace CallGraph

inductive Level where
  | trace
  | debug
  | info
  | warn
  | error
  deriving DecidableEq, Repr

def Level.text : Level → String
  | .trace => "TRACE"
  | .debug => "DEBUG"
  | .info => "INFO"
  | .warn => "WARN"
  | .error => "ERROR"

/-- Whether events of a level are shown to a user who asked for more, or not. -/
def Level.isShown (verbose : Bool) : Level → Bool
  | .trace => false
  | .debug => verbose
  | _ => true

/-- The name of the configuration file of a project. -/
def configFileName : String := "callfold.toml"

inductive Event where
  /-- Sources became a raw graph. -/
  | extracted (nodes edges files : Nat)
  /-- A file has a syntax error on this line and was read as far as possible. -/
  | recovered (path : String) (line : Nat)
  /-- One call site was replaced by its declaration. -/
  | callCollapsed (call declaration : Nat)
  /-- All call sites have been looked at. -/
  | collapsed (calls unmatched highlighted : Nat)
  /-- Loops and isolated nodes were dropped. -/
  | cleaned (loops isolated : Nat)
  /-- A build was answered from the cache. -/
  | cacheHit (files : Nat)
  /-- The parser returned a graph. -/
  | parsed (nodes edges : Nat)
  /-- The cache was written. -/
  | persisted (entries : Nat) (path : String)
  /-- The cache could not be written. -/
  | persistFailed (error : Error)
  /-- A build is complete. -/
  | built (nodes edges collapsed unmatched : Nat)
  /-- There is no cache file. -/
  | cacheAbsent (path : String)
  /-- The cache was read. -/
  | cacheLoaded (entries : Nat) (path : String)
  /-- The cache file is not usable. -/
  | cacheIgnored (path : String) (error : Error)
  /-- There is no configuration file. -/
  | configAbsent (root : String)
  /-- The configuration was read. -/
  | configLoaded (path : String)
  /-- The source paths are known. -/
  | sourcesCollected (files : Nat)
  /-- The graph was written to a file. -/
  | graphWritten (path : String)
  /-- A directory is about to be watched. -/
  | watchingDirectory (path : String)
  /-- A file is about to be watched. -/
  | watchingFile (path : String)
  /-- A build started by the watcher succeeded. -/
  | rebuilt (nodes edges : Nat) (cached : Bool)
  /-- A build started by the watcher failed, for these reasons, the outermost first. -/
  | rebuildFailed (reasons : List String)
  deriving DecidableEq, Repr

namespace Event

def level : Event → Level
  | .callCollapsed .. => .trace
  | .recovered .. | .persistFailed .. | .cacheIgnored .. => .warn
  | .cacheHit .. | .built .. | .graphWritten .. | .watchingDirectory .. | .watchingFile ..
  | .rebuilt .. => .info
  | .rebuildFailed .. => .error
  | .extracted .. | .collapsed .. | .cleaned .. | .parsed .. | .persisted .. | .cacheAbsent ..
  | .cacheLoaded .. | .configAbsent .. | .configLoaded .. | .sourcesCollected .. => .debug

def message : Event → String
  | .extracted n e f => s!"Extracted {n} nodes, {e} edges from {f} files"
  | .recovered path line => s!"{path}:{line}: syntax error, extracting recovered tree"
  | .callCollapsed c d => "collapsed call site " ++ idText c ++ " into " ++ idText d
  | .collapsed c u h => s!"collapsed {c} call sites, {u} unmatched, {h} highlighted edges"
  | .cleaned l i => s!"cleaned graph: dropped {l} self-loops and {i} isolated nodes"
  | .cacheHit n => s!"Cache hit for {n} files, skipping build"
  | .parsed n e => s!"Parsed {n} nodes, {e} edges"
  | .persisted n path => s!"Persisted {n} cached graphs to {path}"
  | .persistFailed error => "Failed to persist result cache: " ++ error.message
  | .built n e c u => s!"Built graph: {n} nodes, {e} edges ({c} collapsed, {u} unmatched)"
  | .cacheAbsent path => s!"No cache found at {path}"
  | .cacheLoaded n path => s!"Loaded {n} cached graphs from {path}"
  | .cacheIgnored path error => s!"Ignoring cache at {path}: " ++ error.message
  | .configAbsent root => s!"No {configFileName} in {root}, using defaults"
  | .configLoaded path => s!"Loaded config from {path}"
  | .sourcesCollected n => s!"Collected {n} source files"
  | .graphWritten path => s!"Wrote graph to {path}"
  | .watchingDirectory path => "Watching directory: " ++ Text.quote path
  | .watchingFile path => "Watching file: " ++ Text.quote path
  | .rebuilt n e cached =>
    s!"Rebuilt graph: {n} nodes, {e} edges" ++ (if cached then " (cached)" else "")
  | .rebuildFailed reasons => "Rebuild failed: " ++ String.intercalate ": " reasons

/-- The line of an event: its level and its message. -/
def line (e : Event) : String := e.level.text ++ " " ++ e.message

end Event

end CallGraph
