import CallGraph.Ignore.Glob
import CallGraph.Text.Blank
import CallGraph.Volume

/-!
Which entries of a directory tree are ignored.

Rules come from files named `.ignore` and `.gitignore` and from `.git/info/exclude`, in the
directory that is walked, in those below and in those above it. A rule applies to entries below the
directory of its file. Of the rules in one file the last that matches decides; of files of one sort
the one in the deepest directory decides; and `.ignore` comes before `.gitignore`, which comes before
the excluded files of a repository. An entry that no rule matches is ignored if it is hidden.
-/

namespace CallGraph.Ignore

structure Rule where
  steps : List Step
  /-- The rule says that an entry is kept. -/
  keeps : Bool
  /-- The rule is about directories only. -/
  onlyDirectories : Bool
  deriving DecidableEq, Repr

def trimEnd (cs : List Char) : List Char := (cs.reverse.dropWhile Text.isBlank).reverse

def endsWith (s : String) (cs : List Char) : Bool := s.toList.isSuffixOf cs

/-- The pattern of a rule that names its path, or may match at any depth if it names only one
segment. What ends in two stars matches what is inside a directory and not the directory. -/
def fullPattern (anchored : Bool) (cs : List Char) : List Char :=
  let deep := ['*', '*', '/']
  let pattern :=
    if anchored || cs.contains '/' || deep.isPrefixOf cs || cs == ['*', '*'] then cs
    else deep ++ cs
  if endsWith "/**" pattern then pattern ++ ['/', '*'] else pattern

/-- The rule of a line, if it has one that can be read. -/
def readRule? (line : String) : Option Rule :=
  let cs := line.toList
  if cs.head? == some '#' then none
  else
    let cs := if endsWith "\\ " cs then cs else trimEnd cs
    if cs.isEmpty then none
    else
      let escaped := ['\\', '!'].isPrefixOf cs || ['\\', '#'].isPrefixOf cs
      let keeps := !escaped && cs.head? == some '!'
      let cs := if escaped || keeps then cs.drop 1 else cs
      let anchored := !escaped && cs.head? == some '/'
      let cs := if anchored then cs.drop 1 else cs
      let onlyDirectories := cs.getLast? == some '/'
      let cs := if onlyDirectories then cs.dropLast else cs
      let cs := if onlyDirectories && cs.getLast? == some '\\' then cs.dropLast else cs
      (readGlob? (fullPattern anchored cs)).map fun steps => ⟨steps, keeps, onlyDirectories⟩

/-- A line without the carriage return at its end. -/
def trimReturn (line : String) : String :=
  if line.toList.getLast? == some '\r' then String.ofList line.toList.dropLast else line

/-- The lines of a list of characters, which line feeds end. -/
def splitLines (cs : List Char) : List (List Char) :=
  match cs with
  | [] => []
  | c :: cs =>
    if c == '\n' then [] :: splitLines cs
    else
      match splitLines cs with
      | line :: rest => (c :: line) :: rest
      | [] => [[c]]

/-- The bytes of the lines of a file, which line feeds end. -/
def splitByteLines (bs : List UInt8) : List (List UInt8) :=
  match bs with
  | [] => []
  | b :: bs =>
    if b == 10 then [] :: splitByteLines bs
    else
      match splitByteLines bs with
      | line :: rest => (b :: line) :: rest
      | [] => [[b]]

/-- The lines of a file, up to the first that is no text. -/
def linesOf : Volume.Content → List String
  | .text s => (splitLines s.toList).map String.ofList
  | .binary bytes =>
    let texts := (splitByteLines bytes).map fun line => String.fromUTF8? ⟨line.toArray⟩
    (texts.takeWhile Option.isSome).filterMap (fun line => line)

/-- A line without a byte order mark at its start. -/
def trimMark (line : String) : String := String.ofList (line.toList.dropWhile (· == '\ufeff'))

def rulesOf (content : Volume.Content) : List Rule :=
  let lines := (linesOf content).map trimReturn
  match lines with
  | [] => []
  | line :: rest => (trimMark line :: rest).filterMap readRule?

/-- What rules say about an entry, given by its path from the directory of the rules: whether it is
kept or ignored, if they say anything. -/
def verdict? (rules : List Rule) (path : String) (isDirectory : Bool) : Option Bool :=
  (rules.reverse.find? fun r =>
    (isDirectory || !r.onlyDirectories) && matchesGlob r.steps path).map Rule.keeps

structure Level where
  /-- Where the directory is. -/
  location : List String
  ignoreFile : List Rule
  gitIgnoreFile : List Rule
  excludeFile : List Rule

/-- The rules in a file, none if it cannot be read. -/
def rulesAt (v : Volume) (location : List String) : List Rule :=
  match v.readContent (Volume.pathOf location) with
  | .ok content => rulesOf content
  | .error _ => []

def levelAt (v : Volume) (location : List String) : Level where
  location
  ignoreFile := rulesAt v (location ++ [".ignore"])
  gitIgnoreFile := rulesAt v (location ++ [".gitignore"])
  excludeFile := rulesAt v (location ++ [".git", "info", "exclude"])

/-- The rules in all directories above a location, the deepest first. -/
def levelsAbove (v : Volume) (location : List String) : List Level :=
  (List.range location.length).reverse.map fun n => levelAt v (location.take n)

/-- What the files of one sort say about an entry. -/
def sortVerdict? (rules : Level → List Rule) (levels : List Level) (location : List String)
    (isDirectory : Bool) : Option Bool :=
  levels.findSome? fun level =>
    verdict? (rules level) (String.intercalate "/" (location.drop level.location.length))
      isDirectory

def isHidden (name : String) : Bool := name.toList.head? == some '.'

/-- Whether an entry at a location is walked, given the rules of the directories that it is in, the
deepest first. -/
def isKept (levels : List Level) (location : List String) (isDirectory : Bool) : Bool :=
  let verdict (rules : Level → List Rule) := sortVerdict? rules levels location isDirectory
  let spoken := (verdict Level.ignoreFile).or (verdict Level.gitIgnoreFile)
  match spoken.or (verdict Level.excludeFile) with
  | some keeps => keeps
  | none => !((location.getLast?.map isHidden).getD false)

mutual

/-- The locations of the entries that are walked from an entry at a location; a directory itself is
not among them. -/
def walkEntry (v : Volume) (levels : List Level) (location : List String) :
    Volume.Entry → List (List String)
  | .directory entries =>
    if isKept levels location true then walkEntries v (levelAt v location :: levels) location entries
    else []
  | _ => if isKept levels location false then [location] else []

def walkEntries (v : Volume) (levels : List Level) (location : List String) :
    List (String × Volume.Entry) → List (List String)
  | [] => []
  | (name, entry) :: es =>
    walkEntry v levels (location ++ [name]) entry ++ walkEntries v levels location es

end

/-- The paths, from the directory at a location, of the entries that are walked in it. -/
def walk (v : Volume) (location : List String) : List (List String) :=
  match v.entryAt location with
  | some (.directory entries) =>
    (walkEntries v (levelAt v location :: levelsAbove v location) location entries).map
      (List.drop location.length)
  | _ => []

end CallGraph.Ignore
