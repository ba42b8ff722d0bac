import Std.Time
import CallGraph.Command.Run
import CallGraph.Text.Timestamp

/-!
The program. It loads the files that a command can reach into a volume, runs the command on it and
carries the changes out. A service is asked again after every quiet period, with the edits that turn
the files it knew into those that are there.
-/

namespace CallGraph.Program

/-- The present moment. -/
def now : IO Cache.Moment := do
  let time ← Std.Time.Timestamp.now
  let nanos := time.toNanosecondsSinceUnixEpoch.val.toNat
  return { savedAt := Text.timestamp (nanos / 1000000000) (nanos % 1000000000) }

/-- The entry that is stored under a path. Links to directories are left out. -/
partial def loadEntry (path : String) : IO (Option Volume.Entry) := do
  try
    let place ← IO.FS.realPath path
    if ← place.isDir then
      let mut entries : Array (String × Volume.Entry) := #[]
      for item in ← place.readDir do
        let linked := (← item.path.symlinkMetadata).type == .symlink
        if !(linked && (← item.path.isDir)) then
          if let some entry ← loadEntry item.path.toString then
            entries := entries.push (item.fileName, entry)
      return some (.directory entries.toList)
    else
      return some (.file (.ofBytes (← IO.FS.readBinFile place).toList))
  catch _ => return none

/-- The names on the way from the root to a path. -/
def locationOf (path : String) : List String :=
  (Path.mk path).segments.filter fun s => !Path.isIdle s

/-- Adds what is stored under a path to a volume. -/
def mount (v : Volume) (path : String) : IO Volume := do
  let some entry ← loadEntry path | return v
  let place := (← IO.FS.realPath path).toString
  let prepared := (v.prepareParent ⟨place⟩).1
  return prepared.put (locationOf place) entry

/-- The files that a command with these arguments can reach: those below the current directory, and
those that arguments name elsewhere. -/
def load (arguments : List String) : IO Volume := do
  let home := (← IO.currentDir).toString
  let outside := arguments.filter fun a => a.startsWith "/" || a.startsWith ".."
  (outside ++ [home]).foldlM mount { home := locationOf home }

def carryOut : Volume.Edit → IO Unit
  | .write path (.file (.text s)) => IO.FS.writeFile path.text s
  | .write path (.file (.binary bytes)) => IO.FS.writeBinFile path.text ⟨bytes.toArray⟩
  | .write path (.directory _) => IO.FS.createDirAll path.text
  | .write _ (.link _) => return
  | .remove path => IO.FS.removeDirAll path.text <|> IO.FS.removeFile path.text
  | .rename source target => IO.FS.rename source.text target.text

def tell (verbose : Bool) (events : List Event) : IO Unit := do
  for event in events do
    if event.level.isShown verbose then IO.eprintln event.line

/-- Lets a service go on for ever. -/
partial def serve (arguments : List String) (verbose : Bool) (pause : Nat) (s : Service) :
    IO Unit := do
  IO.sleep pause.toUInt32
  let current ← load arguments
  let informed := (s.session.volume.editsTo current).foldl (fun s e => (s.edit e).1) s
  let (settled, run) := informed.settle (← now)
  if let some run := run then
    (current.editsTo run.session.volume).forM carryOut
    IO.print run.printed
    tell verbose (run.events ++ [run.summary])
  serve arguments verbose pause settled

end CallGraph.Program

open CallGraph in
def main (arguments : List String) : IO UInt32 := do
  let start ← IO.monoMsNow
  let volume ← Program.load arguments
  let ran := Command.run arguments volume (← Program.now)
  (volume.editsTo ran.volume).forM Program.carryOut
  Program.tell ran.verbose ran.events
  IO.print ran.printed
  for line in ran.closingLines ((← IO.monoMsNow) - start) do
    IO.eprintln line
  if let some service := ran.service then
    Program.serve arguments ran.verbose (max ran.debounceMs 50) service
  return ran.exitCode.toUInt32
