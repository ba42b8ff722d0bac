import CallGraph.Error

/-!
Failures of whole commands.

Where a command fails, the reader is told what was attempted before the cause is given. A failure is
a cause with such contexts around it, the outermost first.
-/

namespace CallGraph

/-- What a failure comes from in the end. -/
inductive Cause where
  /-- An error of a build or a cache. -/
  | error (error : Error)
  /-- A fault of the file tree. -/
  | fault (fault : Fault)
  /-- A text that could not be read as a configuration. -/
  | invalidText
  /-- The last context says all there is. -/
  | none
  deriving DecidableEq, Repr

/-- A cause and the contexts around it. -/
structure Failure where
  contexts : List String
  cause : Cause
  deriving DecidableEq, Repr

namespace Failure

/-- A failure with one more context around it. -/
def within (context : String) (f : Failure) : Failure :=
  { f with contexts := context :: f.contexts }

def plain (message : String) : Failure := ⟨[message], .none⟩

def ofFault (context : String) (fault : Fault) : Failure := ⟨[context], .fault fault⟩

def causeTexts : Cause → List String
  | .error (.storage fault) => [(Error.storage fault).message, fault.message]
  | .error e => [e.message]
  | .fault fault => [fault.message]
  | .invalidText => ["invalid TOML"]
  | .none => []

/-- All that is said about a failure, the outermost first. -/
def reasons (f : Failure) : List String := f.contexts ++ causeTexts f.cause

end Failure

end CallGraph
