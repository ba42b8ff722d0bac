import CallGraph.Path

/-!
The command line: its commands, their options, and how arguments are read.

Arguments are read from left to right, and the first that is wrong or asks for help decides. An
option may be given once for each command on the way; the options that all commands share may be
given again after a further command, and then the later value counts. An option takes its value from
the same argument or from the next one, which must not look like an option. After a double dash
nothing does.
-/

namespace CallGraph

/-- The commands, and those that only lead to others. -/
inductive Verb where
  | program
  | build
  | watch
  | cache
  | cacheStats
  | cacheClear
  | version
  | help
  deriving DecidableEq, Repr

/-- What an option is about. -/
inductive Setting where
  | verbose
  | root
  | config
  | output
  | strict
  | noCache
  | help
  deriving DecidableEq, Repr

structure Switch where
  setting : Setting
  short : Option Char := none
  long : String
  /-- The name of its value, if it takes one. -/
  value : Option String := none
  about : String

namespace Switch

def verbose : Switch :=
  { setting := .verbose, short := some 'v', long := "verbose", about := "Enable verbose logging" }

def root : Switch :=
  { setting := .root, short := some 'r', long := "root", value := some "ROOT"
    about := "Project root holding callfold.toml and the cache (defaults to current directory)" ++
      " [default: .]" }

def config : Switch :=
  { setting := .config, short := some 'c', long := "config", value := some "CONFIG"
    about := "Config file to use instead of <root>/callfold.toml" }

/-- The option for the place of the output, described for one command. -/
def output (about : String) : Switch :=
  { setting := .output, short := some 'o', long := "output", value := some "OUTPUT", about }

def strict : Switch :=
  { setting := .strict, long := "strict"
    about := "Fail on syntax errors instead of building from the recovered tree" }

def noCache : Switch :=
  { setting := .noCache, long := "no-cache", about := "Ignore and do not update the result cache" }

def help : Switch :=
  { setting := .help, short := some 'h', long := "help", about := "Print help" }

end Switch

namespace Verb

def words : Verb → List String
  | .program => ["callfold"]
  | .build => ["callfold", "build"]
  | .watch => ["callfold", "watch"]
  | .cache => ["callfold", "cache"]
  | .cacheStats => ["callfold", "cache", "stats"]
  | .cacheClear => ["callfold", "cache", "clear"]
  | .version => ["callfold", "version"]
  | .help => ["callfold", "help"]

def word (v : Verb) : String := v.words.getLastD ""

def about : Verb → String
  | .program => "Fold Rust call sites into a call graph of declarations"
  | .build => "Build the call graph once"
  | .watch => "Build, then rebuild whenever a source file changes"
  | .cache => "Inspect or clear the result cache"
  | .cacheStats => "Show cached entry count and size"
  | .cacheClear => "Delete the cache directory"
  | .version => "Show version"
  | .help => "Print this message or the help of the given subcommand(s)"

def choices : Verb → List Verb
  | .program => [.build, .watch, .cache, .version, .help]
  | .cache => [.cacheStats, .cacheClear, .help]
  | _ => []

/-- The options of a command, in the order in which they are described. -/
def switches : Verb → List Switch
  | .build =>
    [.output "Where to write the DOT text; \"-\" for stdout", .verbose, .root, .strict, .config,
      .noCache, .help]
  | .watch => [.output "Where to write the DOT text", .verbose, .root, .config, .help]
  | .help => []
  | _ => [.verbose, .root, .config, .help]

/-- What the paths after a command are, if it takes any. -/
def paths? : Verb → Option String
  | .build => some "Files and directories to build (defaults to the root)"
  | .watch => some "Files and directories to watch (defaults to the root)"
  | _ => none

end Verb

structure Invocation where
  verb : Verb := .program
  verbose : Bool := false
  root : Path := ⟨"."⟩
  config : Option Path := none
  output : Option Path := none
  strict : Bool := false
  noCache : Bool := false
  paths : List Path := []
  deriving DecidableEq, Repr

/-- Why reading arguments ends without a command to run. -/
inductive Stop where
  | usage
  | help (verb : Verb)
  deriving DecidableEq, Repr

namespace Invocation

/-- Gives a setting that is on or off. -/
def enable (i : Invocation) : Setting → Invocation
  | .verbose => { i with verbose := true }
  | .strict => { i with strict := true }
  | .noCache => { i with noCache := true }
  | _ => i

/-- Gives a setting that is a path. -/
def assign (i : Invocation) (p : Path) : Setting → Invocation
  | .root => { i with root := p }
  | .config => { i with config := some p }
  | .output => { i with output := some p }
  | _ => i

structure Reading where
  invocation : Invocation := {}
  /-- The settings given since the last command word. -/
  given : List Setting := []
  /-- The setting whose value comes next. -/
  awaiting : Option Setting := none
  /-- A double dash was read. -/
  literal : Bool := false
  /-- The word for help was read; further words choose what it is about. -/
  helping : Bool := false

namespace Reading

def note (r : Reading) (s : Setting) : Except Stop Reading :=
  if r.given.contains s then .error .usage else .ok { r with given := s :: r.given }

def takeFlag (r : Reading) (s : Setting) : Except Stop Reading :=
  if s = .help then .error (.help r.invocation.verb)
  else (r.note s).map fun r => { r with invocation := r.invocation.enable s }

/-- Takes an option with its value, which must not be empty. -/
def takeValue (r : Reading) (s : Setting) (value : String) : Except Stop Reading :=
  if value == "" then .error .usage
  else
    (r.note s).map fun r => { r with invocation := r.invocation.assign ⟨value⟩ s, awaiting := none }

/-- Takes an option in its long form, with a value if one is attached. -/
def takeLong (r : Reading) (name : String) (value : Option String) : Except Stop Reading :=
  match r.invocation.verb.switches.find? fun s => s.long == name with
  | none => .error .usage
  | some switch =>
    match switch.value, value with
    | none, none => r.takeFlag switch.setting
    | none, some _ => .error .usage
    | some _, some v => r.takeValue switch.setting v
    | some _, none => .ok { r with awaiting := some switch.setting }

/-- Takes options in their short forms, the last one with a value if one is attached. -/
def takeShorts (r : Reading) : List Char → Except Stop Reading
  | [] => .ok r
  | c :: cs =>
    match r.invocation.verb.switches.find? fun s => s.short == some c with
    | none => .error .usage
    | some switch =>
      match switch.value, cs with
      | none, _ => (r.takeFlag switch.setting).bind fun r => takeShorts r cs
      | some _, [] => .ok { r with awaiting := some switch.setting }
      | some _, '=' :: rest => r.takeValue switch.setting (String.ofList rest)
      | some _, _ => r.takeValue switch.setting (String.ofList cs)

def choice? (r : Reading) (word : String) : Option Verb :=
  r.invocation.verb.choices.find? fun v => v.word == word

def takePath (r : Reading) (s : String) : Except Stop Reading :=
  if s == "" || r.invocation.verb.paths?.isNone then .error .usage
  else
    .ok { r with invocation := { r.invocation with paths := r.invocation.paths ++ [⟨s⟩] } }

def takeWord (r : Reading) (s : String) : Except Stop Reading :=
  match r.choice? s with
  | some .help => .ok { r with helping := true }
  | some verb => .ok { r with invocation := { r.invocation with verb }, given := [] }
  | none => r.takePath s

/-- Takes a word that chooses what help is about. -/
def takeTopic (r : Reading) (s : String) : Except Stop Reading :=
  match r.choice? s with
  | some verb => .ok { r with invocation := { r.invocation with verb } }
  | none => .error .usage

def looksLikeOption (s : String) : Bool := s.toList.head? == some '-' && s != "-"

def takeOption (r : Reading) (s : String) : Except Stop Reading :=
  match s.toList with
  | '-' :: '-' :: cs =>
    let name := String.ofList (cs.takeWhile (· != '='))
    match cs.dropWhile (· != '=') with
    | [] => r.takeLong name none
    | _ :: value => r.takeLong name (some (String.ofList value))
  | _ :: cs => r.takeShorts cs
  | [] => .error .usage

def take (r : Reading) (s : String) : Except Stop Reading :=
  if r.helping then r.takeTopic s
  else
    match r.awaiting with
    | some setting => if looksLikeOption s then .error .usage else r.takeValue setting s
    | none =>
      if r.literal then r.takePath s
      else if s == "--" then .ok { r with literal := true }
      else if looksLikeOption s then r.takeOption s
      else r.takeWord s

/-- Ends reading. A value may not be missing, nor a command. -/
def finish (r : Reading) : Except Stop Invocation :=
  if r.helping then .error (.help r.invocation.verb)
  else if r.awaiting.isSome || !r.invocation.verb.choices.isEmpty then .error .usage
  else .ok r.invocation

end Reading

def ofArguments (arguments : List String) : Except Stop Invocation :=
  (arguments.foldlM Reading.take {}).bind Reading.finish

end Invocation

end CallGraph
