/-!
Paths of files.

A path is a text whose segments stand between slashes. Its components are what the segments mean:
an empty segment means nothing, and neither does a dot, unless the path starts with it. Two paths
are the same when their components are, and paths are ordered by their components. A path is never
resolved here: `..` is a component like any other.
-/

namespace CallGraph

structure Path where
  text : String
  deriving DecidableEq, Repr, Inhabited

namespace Path

/-- What a segment of a path means. -/
inductive Component where
  | root
  | current
  | parent
  | normal (name : String)
  deriving DecidableEq, Repr

/-- The rank of a component among components of other sorts. -/
def Component.rank : Component → Nat
  | root => 0
  | current => 1
  | parent => 2
  | normal _ => 3

/-- Components are ordered by their sort, names by their characters. -/
def Component.lt (a b : Component) : Bool :=
  match a, b with
  | normal s, normal t => s < t
  | _, _ => a.rank < b.rank

def Component.text : Component → String
  | root => "/"
  | current => "."
  | parent => ".."
  | normal name => name

/-- The segments of a text, which slashes part. There is always at least one. -/
def splitSlashes : List Char → List (List Char)
  | [] => [[]]
  | c :: cs =>
    if c == '/' then [] :: splitSlashes cs
    else
      match splitSlashes cs with
      | s :: ss => (c :: s) :: ss
      | [] => [[c]]

def segments (p : Path) : List String := (splitSlashes p.text.toList).map String.ofList

/-- Whether the path starts at the root of the file tree. -/
def isAbsolute (p : Path) : Bool := p.text.toList.head? == some '/'

/-- Whether a segment means nothing where it is not the first. -/
def isIdle (s : String) : Bool := s == "" || s == "."

/-- The component that a segment in the middle of a path stands for. -/
def component? (s : String) : Option Component :=
  if isIdle s then none else if s == ".." then some .parent else some (.normal s)

def components (p : Path) : List Component :=
  let inner := p.segments.filterMap component?
  if p.isAbsolute then .root :: inner
  else if p.segments.head? == some "." then .current :: inner
  else inner

/-- Whether two paths have the same components. -/
def same (p q : Path) : Bool := p.components == q.components

/-- The order of lists of components. -/
def componentsLt : List Component → List Component → Bool
  | [], [] => false
  | [], _ :: _ => true
  | _ :: _, [] => false
  | a :: as, b :: bs => if a.lt b then true else if b.lt a then false else componentsLt as bs

/-- The order of paths. -/
def lt (p q : Path) : Bool := componentsLt p.components q.components

/-- Whether the components of one path start those of another. -/
def startsWith (p dir : Path) : Bool := dir.components.isPrefixOf p.components

/-- The last component, if it is a name. -/
def fileName? (p : Path) : Option String :=
  match p.components.getLast? with
  | some (.normal name) => some name
  | _ => none

/-- What follows the last dot of a name, unless this dot comes first. -/
def extensionOf (name : String) : Option String :=
  let reversed := name.toList.reverse
  let tail := reversed.takeWhile (· != '.')
  if tail.length + 1 < reversed.length then some (String.ofList tail.reverse) else none

def extension? (p : Path) : Option String := p.fileName?.bind extensionOf

def hasExtension (p : Path) (extensions : List String) : Bool :=
  match p.extension? with
  | some e => extensions.contains e
  | none => false

/-- Takes off the end of a path what means nothing there. The segments are given from the last one to
the first. A dot that a relative path starts with stays. -/
def trim (absolute : Bool) (ss : List String) : List String :=
  if !absolute && ss.getLast? == some "." then ss.dropLast.dropWhile isIdle ++ ["."]
  else ss.dropWhile isIdle

/-- The segments after the slash that an absolute path starts with, or all segments. -/
def body (p : Path) : List String := if p.isAbsolute then p.segments.tail else p.segments

/-- The path without its last component; none for the empty path and for the root. -/
def parent? (p : Path) : Option Path :=
  match trim p.isAbsolute p.body.reverse with
  | [] => none
  | _ :: rest =>
    some ⟨(if p.isAbsolute then "/" else "") ++
      String.intercalate "/" (trim p.isAbsolute rest).reverse⟩

/-- A path below another; an absolute path stands for itself. -/
def join (p q : Path) : Path :=
  if q.isAbsolute then q
  else if p.text == "" || p.text.toList.getLast? == some '/' then ⟨p.text ++ q.text⟩
  else ⟨p.text ++ "/" ++ q.text⟩

def child (p : Path) (name : String) : Path := p.join ⟨name⟩

end Path

/-- A source file, read in full. -/
structure SourceFile where
  path : Path
  content : String
  deriving DecidableEq, Repr

/-- The key of a build: the texts of its files, one after the other. -/
def buildKey (files : List SourceFile) : String := String.join (files.map SourceFile.content)

end CallGraph
