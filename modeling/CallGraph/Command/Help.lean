import CallGraph.Command.Arguments

/-!
The help texts of commands.

A text says what the command does, how it is called, and lists commands, paths and options. In a list
the descriptions start in one column, two blanks after the longest name.
-/

namespace CallGraph.Help

/-- Lines of names and descriptions in two columns. -/
def table (rows : List (String × String)) : List String :=
  let width := rows.foldl (fun n row => max n row.1.length) 0
  rows.map fun row =>
    "  " ++ row.1 ++ String.ofList (List.replicate (width - row.1.length) ' ') ++ "  " ++ row.2

/-- A list under a title; no list has no title. -/
def block (title : String) (rows : List (String × String)) : List String :=
  if rows.isEmpty then [] else "" :: (title ++ ":") :: table rows

def switchText (s : Switch) : String :=
  let short := match s.short with
    | some c => "-" ++ String.singleton c ++ ", "
    | none => "    "
  let value := match s.value with
    | some name => " <" ++ name ++ ">"
    | none => ""
  short ++ "--" ++ s.long ++ value

/-- What follows the options in a call. -/
def operands (v : Verb) : List String :=
  if v = .help then ["[COMMAND]..."]
  else if v.paths?.isSome then ["[PATHS]..."]
  else if v.choices.isEmpty then []
  else ["<COMMAND>"]

def usage (v : Verb) : String :=
  let options := if v.switches.isEmpty then [] else ["[OPTIONS]"]
  "Usage: " ++ String.intercalate " " (v.words ++ options ++ operands v)

def operandRows (v : Verb) : List (String × String) :=
  if v = .help then [("[COMMAND]...", "Print help for the subcommand(s)")]
  else (v.paths?.map fun about => ("[PATHS]...", about)).toList

def text (v : Verb) : String :=
  String.join ((([v.about, "", usage v] ++
    block "Commands" (v.choices.map fun c => (c.word, c.about)) ++
    block "Arguments" (operandRows v) ++
    block "Options" (v.switches.map fun s => (switchText s, s.about)))).map (· ++ "\n"))

end CallGraph.Help
