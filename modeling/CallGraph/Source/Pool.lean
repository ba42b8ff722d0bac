import CallGraph.Machine
import CallGraph.Source.Extract

/-!
Parsing by a pool of workers.

A parser keeps state from one text to the next and belongs to one thread. So parsers live in workers,
and clients reach them through one queue that all workers share. A request goes into the queue with
the sending end of a channel that was made for its answer and that nobody else knows. The worker that
takes the request parses and sends its answer there, and the client waits at the receiving end.

An idle worker first takes the lock of the queue and holds it while it waits for a request. A worker
stops when the queue is empty and no client is left that could send, and the queue is gone with the
last worker.

Nothing here says in which order things happen: an `Action` is one thing that one client or one
worker does, and a run is any list of them in which each can be done.
-/

namespace CallGraph.Source

/-- A language that sources are in. -/
inductive FileType where
  | rust
  deriving DecidableEq, Repr

/-- The language that the extension of a path tells. -/
def FileType.ofPath? (p : Path) : Option FileType :=
  if p.extension? == some "rs" then some .rust else none

/-- A text to be parsed. -/
structure ParseRequest where
  fileType : FileType
  content : String
  path : Path
  deriving DecidableEq, Repr

structure ParseResult where
  tree : Tree
  path : Path
  content : String

/-- Why there is no tree. -/
inductive ParseFailure where
  /-- The parser does not know the language. -/
  | language (reason : String)
  | noTree (path : Path)
  /-- There is no worker to take the request. -/
  | shutDown
  /-- The worker went away with the request. -/
  | workerDied
  deriving DecidableEq, Repr

def ParseFailure.message : ParseFailure → String
  | .language reason => "Failed to set language: " ++ reason
  | .noTree path => "Failed to parse " ++ path.text
  | .shutDown => "Parser pool is shut down"
  | .workerDied => "Parser worker died"

/-- What a client gets for a request. -/
abbrev Answer := Except ParseFailure ParseResult

/-! Parsers. -/

/-- What makes parsers. A parser is set to a language, which may be refused for a reason, and then
parses a text of it. Both change the parser. -/
structure Engine where
  Parser : Type
  fresh : Parser
  setLanguage : Parser → FileType → Option String × Parser
  parse : Parser → String → Option Tree × Parser

namespace Engine

def parseOne (e : Engine) (parser : e.Parser) (r : ParseRequest) : Answer × e.Parser :=
  match e.setLanguage parser r.fileType with
  | (some reason, parser) => (.error (.language reason), parser)
  | (none, parser) =>
    match e.parse parser r.content with
    | (none, parser) => (.error (.noTree r.path), parser)
    | (some tree, parser) => (.ok ⟨tree, r.path, r.content⟩, parser)

/-- What is known of parsers: whether a language is refused, and then which tree a text has, does not
depend on what a parser did before. -/
structure Documented (e : Engine) : Prop where
  language : ∀ (p q : e.Parser) t, (e.setLanguage p t).1 = (e.setLanguage q t).1
  tree : ∀ (p q : e.Parser) t s, (e.setLanguage p t).1 = none →
    (e.parse (e.setLanguage p t).2 s).1 = (e.parse (e.setLanguage q t).2 s).1

/-- The answer of a parser that has done nothing yet. -/
def answer (e : Engine) (r : ParseRequest) : Answer := (e.parseOne e.fresh r).1

/-- Parsers by the grammar of this library. They keep all texts that they have parsed. -/
def grammar : Engine where
  Parser := Option FileType × List String
  fresh := (none, [])
  setLanguage parser type := (none, (some type, parser.2))
  parse parser text :=
    (match parser.1 with
      | some .rust => some (Source.parse text)
      | none => none,
      (parser.1, parser.2 ++ [text]))

end Engine

/-! Clients. -/

/-- What a client does: it asks for one text after the other, where later requests may depend on
earlier answers, and comes to a result. -/
inductive Script (α : Type) where
  | done (result : α)
  | ask (request : ParseRequest) (next : Answer → Script α)

namespace Script

variable {α β : Type}

/-- Goes on with the result. -/
def map (f : α → β) : Script α → Script β
  | done a => done (f a)
  | ask r next => ask r fun answer => (next answer).map f

/-- The result, if every request has the answer that is given for it. -/
def eval (answer : ParseRequest → Answer) : Script α → α
  | done a => a
  | ask r next => (next (answer r)).eval answer

/-- How many requests are made on the way. -/
def asks (answer : ParseRequest → Answer) : Script α → Nat
  | done _ => 0
  | ask r next => (next (answer r)).asks answer + 1

end Script

/-- Asks for the tree of a file, if its language is known. -/
def askFor (f : SourceFile) (next : Answer → Script (List Event × Except Error Graph)) :
    Option FileType → Script (List Event × Except Error Graph)
  | none => .done ([], .error (.parse (f.path.text ++ ": unsupported file type")))
  | some type => .ask ⟨type, f.content, f.path⟩ next

/-- What is done with the answer for a file, and then with the rest of the files. -/
def takeAnswer (strict : Bool) (g : Graph) (index : Nat) (f : SourceFile)
    (rest : Graph → Script (List Event × Except Error Graph)) :
    Answer → Script (List Event × Except Error Graph)
  | .error failure => .done ([], .error (.parse (f.path.text ++ ": " ++ failure.message)))
  | .ok result =>
    match faultLine? result.tree with
    | some line =>
      if strict then
        .done ([], .error (.parse (f.path.text ++ ":" ++ Nat.repr line ++ ": syntax error")))
      else
        (rest (addFile g index.toUInt32 f.path result.tree)).map fun r =>
          (.recovered f.path.text line :: r.1, r.2)
    | none => rest (addFile g index.toUInt32 f.path result.tree)

/-- Extracts the files from the one at an index on, as `extractFrom` does, with trees that are asked
for. -/
def extraction (strict : Bool) (g : Graph) (index : Nat) :
    List SourceFile → Script (List Event × Except Error Graph)
  | [] => .done ([], .ok g)
  | f :: fs =>
    askFor f (takeAnswer strict g index f fun g => extraction strict g (index + 1) fs)
      (FileType.ofPath? f.path)

/-- What extraction says at its end. -/
def reported (count : Nat) : List Event × Except Error Graph → Parsed
  | (events, .ok g) => ⟨events ++ [.extracted g.nodeCount g.edgeCount count], .ok g⟩
  | (events, .error e) => ⟨events, .error e⟩

/-- What a client does for `extract`. -/
def extracting (strict : Bool) (files : List SourceFile) : Script Parsed :=
  (extraction strict Graph.empty 0 files).map (reported files.length)

namespace Pool

/-- A request in the queue, and the channel for its answer. -/
structure Job where
  request : ParseRequest
  channel : Nat

/-- What a worker is at. -/
inductive Stage where
  | idle
  /-- It holds the lock and waits for a request. -/
  | listening
  | parsing (job : Job)
  | sending (channel : Nat) (answer : Answer)
  | stopped

structure Worker (e : Engine) where
  parser : e.Parser
  stage : Stage

/-- What a client is at. -/
inductive Client (α : Type) where
  | running (script : Script α)
  /-- It waits at a channel for the answer to a request. -/
  | waiting (channel : Nat) (request : ParseRequest) (next : Answer → Script α)
  /-- It has a result and has let go of the pool. -/
  | left (result : α)

/-- The channel that the worker has the sending end of. -/
def Stage.channel? : Stage → Option Nat
  | .parsing job => some job.channel
  | .sending channel _ => some channel
  | _ => none

def Stage.isStopped : Stage → Bool
  | .stopped => true
  | _ => false

variable {α : Type}

/-- The channel that the client has the receiving end of. -/
def Client.channel? : Client α → Option Nat
  | .waiting channel _ _ => some channel
  | _ => none

def Client.hasLeft : Client α → Bool
  | .left _ => true
  | _ => false

/-- What can be done, by the client or the worker with a number. -/
inductive Action where
  /-- A client sends a request with a new channel. -/
  | call (client : Nat)
  | receive (client : Nat)
  /-- A client finds that nobody can answer any more. -/
  | giveUp (client : Nat)
  | leave (client : Nat)
  /-- A worker takes the lock of the queue. -/
  | acquire (worker : Nat)
  /-- A worker takes a request and gives the lock back. -/
  | take (worker : Nat)
  | parse (worker : Nat)
  | send (worker : Nat)
  /-- A worker finds that nobody can ask any more. -/
  | hangUp (worker : Nat)
  deriving DecidableEq, Repr

/-- What is done with requests and answers. A request is known by its channel. -/
inductive Deed where
  | asked (client channel : Nat) (request : ParseRequest)
  /-- A request could not be sent. -/
  | refused (client : Nat)
  | took (worker channel : Nat)
  | answered (worker channel : Nat) (answer : Answer)
  /-- An answer could not be sent. -/
  | unheard (worker channel : Nat)
  | got (client channel : Nat) (answer : Answer)
  /-- No answer can come. -/
  | deserted (client channel : Nat)

end Pool

/-- The queue and who holds its lock, the workers, what each channel holds, and the clients. -/
structure Pool (e : Engine) (α : Type) where
  queue : List Pool.Job := []
  lock : Option Nat := none
  workers : List (Pool.Worker e)
  channels : List (List Answer) := []
  clients : List (Pool.Client α)

namespace Pool

variable {e : Engine} {α : Type}

/-- A new pool with its clients. There is at least one worker, whatever is asked for. -/
def start (e : Engine) (workers : Nat) (scripts : List (Script α)) : Pool e α where
  workers := List.replicate (max workers 1) ⟨e.fresh, .idle⟩
  clients := scripts.map .running

/-- Whether the sending end of a channel is in the queue or at a worker. -/
def hasSender (p : Pool e α) (channel : Nat) : Bool :=
  p.queue.any (fun job => job.channel == channel) ||
    p.workers.any (fun w => w.stage.channel? == some channel)

/-- Whether a client is at the receiving end of a channel. -/
def hasReceiver (p : Pool e α) (channel : Nat) : Bool :=
  p.clients.any (fun c => c.channel? == some channel)

/-- Puts a worker at a stage. -/
def setWorker (p : Pool e α) (w : Nat) (parser : e.Parser) (stage : Stage) : Pool e α :=
  { p with workers := p.workers.set w ⟨parser, stage⟩ }

/-- What a client does next. -/
def setClient (p : Pool e α) (i : Nat) (client : Client α) : Pool e α :=
  { p with clients := p.clients.set i client }

/-- A client makes a channel and sends a request, unless the last worker has stopped. -/
def call (p : Pool e α) (i : Nat) : Option (Pool e α × List Deed) :=
  match p.clients[i]? with
  | some (.running (.ask r next)) =>
    if p.workers.all (fun w => w.stage.isStopped) then
      some (p.setClient i (.running (next (.error .shutDown))), [.refused i])
    else
      let channel := p.channels.length
      some ({ p.setClient i (.waiting channel r next) with
          queue := p.queue ++ [⟨r, channel⟩]
          channels := p.channels ++ [[]] },
        [.asked i channel r])
  | _ => none

def receive (p : Pool e α) (i : Nat) : Option (Pool e α × List Deed) :=
  match p.clients[i]? with
  | some (.waiting channel _ next) =>
    match p.channels[channel]? with
    | some (answer :: rest) =>
      some ({ p.setClient i (.running (next answer)) with
          channels := p.channels.set channel rest },
        [.got i channel answer])
    | _ => none
  | _ => none

/-- A client waits no longer if its channel is empty and has no sending end. -/
def giveUp (p : Pool e α) (i : Nat) : Option (Pool e α × List Deed) :=
  match p.clients[i]? with
  | some (.waiting channel _ next) =>
    match p.channels[channel]? with
    | some [] =>
      if p.hasSender channel then none
      else some (p.setClient i (.running (next (.error .workerDied))), [.deserted i channel])
    | _ => none
  | _ => none

/-- A client that has its result lets go of the pool. -/
def leave (p : Pool e α) (i : Nat) : Option (Pool e α × List Deed) :=
  match p.clients[i]? with
  | some (.running (.done a)) => some (p.setClient i (.left a), [])
  | _ => none

/-- An idle worker takes the lock. -/
def acquire (p : Pool e α) (w : Nat) : Option (Pool e α × List Deed) :=
  match p.lock, p.workers[w]? with
  | none, some ⟨parser, .idle⟩ => some ({ p.setWorker w parser .listening with lock := some w }, [])
  | _, _ => none

/-- A worker takes the first request. -/
def take (p : Pool e α) (w : Nat) : Option (Pool e α × List Deed) :=
  match p.workers[w]?, p.queue with
  | some ⟨parser, .listening⟩, job :: rest =>
    some ({ p.setWorker w parser (.parsing job) with queue := rest, lock := none },
      [.took w job.channel])
  | _, _ => none

def parse (p : Pool e α) (w : Nat) : Option (Pool e α × List Deed) :=
  match p.workers[w]? with
  | some ⟨parser, .parsing job⟩ =>
    let (answer, parser) := e.parseOne parser job.request
    some (p.setWorker w parser (.sending job.channel answer), [])
  | _ => none

/-- A worker sends its answer, if there is anyone to receive it. -/
def send (p : Pool e α) (w : Nat) : Option (Pool e α × List Deed) :=
  match p.workers[w]? with
  | some ⟨parser, .sending channel answer⟩ =>
    match p.channels[channel]? with
    | some messages =>
      if p.hasReceiver channel then
        some ({ p.setWorker w parser .idle with
            channels := p.channels.set channel (messages ++ [answer]) },
          [.answered w channel answer])
      else some (p.setWorker w parser .idle, [.unheard w channel])
    | none => none
  | _ => none

/-- A worker stops, and gives the lock back. -/
def hangUp (p : Pool e α) (w : Nat) : Option (Pool e α × List Deed) :=
  match p.workers[w]? with
  | some ⟨parser, .listening⟩ =>
    if p.queue.isEmpty && p.clients.all Client.hasLeft then
      some ({ p.setWorker w parser .stopped with lock := none }, [])
    else none
  | _ => none

/-- One action, and what it does, if it can be done now. -/
def step (p : Pool e α) : Action → Option (Pool e α × List Deed)
  | .call i => p.call i
  | .receive i => p.receive i
  | .giveUp i => p.giveUp i
  | .leave i => p.leave i
  | .acquire w => p.acquire w
  | .take w => p.take w
  | .parse w => p.parse w
  | .send w => p.send w
  | .hangUp w => p.hangUp w

/-- Actions one after the other, and all that they do. -/
abbrev run (p : Pool e α) (as : List Action) : Option (Pool e α × List Deed) := Machine.run step p as

end Pool

end CallGraph.Source
