import CallGraph.Cache
import CallGraph.Clean
import CallGraph.Dot
import CallGraph.Source.Extract

/-!
Builds: from sources to the text of their folded graph, through the cache.

A build is answered from the cache if it can be. Otherwise the parser runs, its graph is folded and
drawn, and the text is stored in the cache, in memory and in its file. A build fails only if its
parser does, and then nothing has changed. That the cache file cannot be written is reported and no
failure.
-/

namespace CallGraph

structure Report where
  cacheHit : Bool := false
  files : Nat := 0
  rawNodes : Nat := 0
  rawEdges : Nat := 0
  collapsed : Nat := 0
  unmatched : Nat := 0
  nodes : Nat := 0
  edges : Nat := 0
  highlighted : Nat := 0
  /-- Whether this build wrote the cache file. -/
  persisted : Bool := false
  deriving DecidableEq, Repr

structure Output where
  dot : String
  report : Report
  deriving DecidableEq, Repr

/-- What builds share: the file tree and the cache. -/
structure Session where
  volume : Volume
  cache : Cache

/-- How builds are done: by which parser, and whether through the cache. -/
structure Pipeline where
  parse : List SourceFile → Parsed
  useCache : Bool := true

structure Built where
  session : Session
  events : List Event
  result : Except Error Output

namespace Pipeline

/-- The builder that extracts Rust sources, with a parser for their texts. -/
def extractorWith (parse : String → Source.Tree) (strict useCache : Bool) : Pipeline :=
  ⟨Source.extractWith parse strict, useCache⟩

/-- The builder that extracts Rust sources. -/
def extractor (strict useCache : Bool) : Pipeline := extractorWith Source.parse strict useCache

/-- The answer of the cache to a build, if builds use it. -/
def cached? (p : Pipeline) (s : Session) (files : List SourceFile) : Option String :=
  if p.useCache then s.cache.lookup (buildKey files) else none

/-- Stores the text of a build and returns whether the cache file was written. -/
def store (p : Pipeline) (s : Session) (moment : Cache.Moment) (files : List SourceFile)
    (dot : String) : Session × List Event × Bool :=
  if p.useCache then
    let cache := s.cache.insert (buildKey files) dot
    let persisted := cache.persist s.volume moment
    let session : Session := ⟨persisted.volume, cache⟩
    match persisted.result with
    | .ok () => (session, persisted.events, true)
    | .error e => (session, persisted.events ++ [.persistFailed e], false)
  else (s, [], false)

/-- Folds a graph and stores its text. -/
def finish (p : Pipeline) (s : Session) (moment : Cache.Moment) (files : List SourceFile)
    (g : Graph) : Built :=
  match g.fold with
  | .error e => ⟨s, [], .error e⟩
  | .ok f =>
    let dot := Dot.render f.clean
    let (session, events, persisted) := p.store s moment files dot
    let report : Report := {
      files := files.length
      rawNodes := g.nodeCount
      rawEdges := g.edgeCount
      collapsed := f.outcome.collapsed
      unmatched := f.outcome.unmatched
      nodes := f.clean.graph.nodeCount
      edges := f.clean.graph.edgeCount
      highlighted := f.clean.highlighted.size
      persisted }
    ⟨session,
      f.events ++ events ++
        [.built report.nodes report.edges report.collapsed report.unmatched],
      .ok ⟨dot, report⟩⟩

/-- Goes on after the parser has run. -/
def conclude (p : Pipeline) (s : Session) (moment : Cache.Moment) (files : List SourceFile)
    (parsed : Parsed) : Built :=
  match parsed.result with
  | .error e => ⟨s, parsed.events, .error e⟩
  | .ok g =>
    let built := p.finish s moment files g
    { built with events := parsed.events ++ [.parsed g.nodeCount g.edgeCount] ++ built.events }

/-- Builds the text of some sources by a parser that may have effects of its own. -/
def buildWith {m : Type → Type} [Monad m] (parse : List SourceFile → m Parsed) (p : Pipeline)
    (s : Session) (moment : Cache.Moment) (files : List SourceFile) : m Built :=
  match p.cached? s files with
  | some dot =>
    pure ⟨s, [.cacheHit files.length], .ok ⟨dot, { cacheHit := true, files := files.length }⟩⟩
  | none => do
    let parsed ← parse files
    return p.conclude s moment files parsed

def build (p : Pipeline) (s : Session) (moment : Cache.Moment) (files : List SourceFile) : Built :=
  Id.run (p.buildWith (fun sources => pure (p.parse sources)) s moment files)

end Pipeline

end CallGraph
