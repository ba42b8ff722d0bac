import CallGraph.Node

/-!
Causes of failure.

A `Fault` is why an operation on files failed. An `Error` is why a build or a cache operation
failed. Both are values; their wording is in `Fault.message` and `Error.message` and nowhere else.
-/

namespace CallGraph

inductive Fault where
  | notFound
  | notADirectory
  | isADirectory
  | alreadyExists
  | directoryNotEmpty
  | invalidInput
  | nulInPath
  | busy
  | linkLoop
  | nameTooLong
  | notUtf8
  deriving DecidableEq, Repr, Inhabited

def Fault.kind : Fault → String
  | .notFound => "NotFound"
  | .notADirectory => "NotADirectory"
  | .isADirectory => "IsADirectory"
  | .alreadyExists => "AlreadyExists"
  | .directoryNotEmpty => "DirectoryNotEmpty"
  | .invalidInput => "InvalidInput"
  | .nulInPath => "InvalidInput"
  | .busy => "ResourceBusy"
  | .linkLoop => "FilesystemLoop"
  | .nameTooLong => "InvalidFilename"
  | .notUtf8 => "InvalidData"

def Fault.message : Fault → String
  | .notFound => "No such file or directory (os error 2)"
  | .notADirectory => "Not a directory (os error 20)"
  | .isADirectory => "Is a directory (os error 21)"
  | .alreadyExists => "File exists (os error 17)"
  | .directoryNotEmpty => "Directory not empty (os error 39)"
  | .invalidInput => "Invalid argument (os error 22)"
  | .nulInPath => "file name contained an unexpected NUL byte"
  | .busy => "Device or resource busy (os error 16)"
  | .linkLoop => "Too many levels of symbolic links (os error 40)"
  | .nameTooLong => "File name too long (os error 36)"
  | .notUtf8 => "stream did not contain valid UTF-8"

/-- The version of the cache file format that this library reads and writes. -/
def cacheVersion : UInt32 := 1

inductive Error where
  /-- The sources were rejected; no graph is produced. -/
  | parse (text : String)
  /-- The graph has no node with this id. -/
  | notFound (id : Nat)
  /-- The cache could not be read or written. -/
  | storage (fault : Fault)
  /-- The cache file is no text of a cache. -/
  | malformed
  /-- The cache file has a version other than `cacheVersion`. -/
  | version (found : UInt32)
  deriving DecidableEq, Repr, Inhabited

def Error.message : Error → String
  | .parse text => "parse failed: " ++ text
  | .notFound id => "node " ++ idText id ++ " not found"
  | .storage fault => "cache i/o: " ++ fault.message
  | .malformed => "cache serialization"
  | .version found =>
    "cache format version " ++ Nat.repr found.toNat ++ " does not match expected " ++
      Nat.repr cacheVersion.toNat

end CallGraph
