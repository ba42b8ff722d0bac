import CallGraph.Event
import CallGraph.Failure
import CallGraph.Toml.Reader
import CallGraph.Volume

/-!
The configuration of a project.

It is read from a TOML file, usually the one with a fixed name in the root of the project. Every
setting has a default; keys that are no settings are ignored.
-/

namespace CallGraph

/-- The name of the directory that holds the cache of a project. -/
def cacheDirectoryName : String := ".callfold"

/-- The namespace that built graphs are kept in. -/
def defaultNamespace : String := "graphs"

def cacheDirectory (root : Path) : Path := root.child cacheDirectoryName

structure Config where
  cacheDir : Option Path := none
  namespaceName : String := defaultNamespace
  extensions : List String := ["rs"]
  strict : Bool := false
  output : Path := ⟨"output.dot"⟩
  debounceMs : Nat := 300
  deriving DecidableEq, Repr

namespace Config

open Toml

/-- The setting of a key, if the key is there; none if its value has the wrong type. -/
def setting? {α : Type} (members : Members) (key : String) (read : Item → Option α) (default : α) :
    Option α :=
  match members.get? key with
  | none => some default
  | some item => read item

def asText? : Item → Option String
  | .text s => some s
  | _ => none

def asTexts? : Item → Option (List String)
  | .array items => items.mapM asText?
  | _ => none

def asBool? : Item → Option Bool
  | .boolean b => some b
  | _ => none

def asNat? : Item → Option Nat
  | .integer n => if n ≥ 0 then some n.toNat else none
  | _ => none

def ofMembers? (members : Members) : Option Config := do
  let default : Config := {}
  return {
    cacheDir := ← setting? members "cache_dir" (fun i => (asText? i).map fun s => some ⟨s⟩)
      default.cacheDir
    namespaceName := ← setting? members "namespace" asText? default.namespaceName
    extensions := ← setting? members "extensions" asTexts? default.extensions
    strict := ← setting? members "strict" asBool? default.strict
    output := ← setting? members "output" (fun i => (asText? i).map Path.mk) default.output
    debounceMs := ← setting? members "debounce_ms" asNat? default.debounceMs }

def ofText? (text : String) : Option Config := (Toml.read? text).bind ofMembers?

def ofFile (v : Volume) (path : Path) : List Event × Except Failure Config :=
  match v.readText path with
  | .error fault => ([], .error (.ofFault ("Failed to read config " ++ path.text) fault))
  | .ok text =>
    match ofText? text with
    | none => ([], .error ⟨["Invalid config " ++ path.text], .invalidText⟩)
    | some config => ([.configLoaded path.text], .ok config)

/-- Reads the configuration of the project with a root. Without a file all settings have their
defaults. -/
def load (v : Volume) (root : Path) : List Event × Except Failure Config :=
  let path := root.child configFileName
  if v.contains path then ofFile v path else ([.configAbsent root.text], .ok {})

def cacheDirectory (c : Config) (root : Path) : Path :=
  match c.cacheDir with
  | some dir => root.join dir
  | none => CallGraph.cacheDirectory root

end Config

end CallGraph
