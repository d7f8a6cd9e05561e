/-
  LineBasic.Main

  The command line on the real console and the real file system. What is decided is decided by the
  library; here lines are read, events are shown as they come, and files are opened.
-/
import LineBasic.CommandLine.Run

namespace LineBasic.Main

/-- How many lines are executed before their events are shown. -/
def burst : Nat := 64

/-- Shows the events of the machine, and forgets them. -/
def flushEvents (verbose : Bool) (m : Machine) : IO Machine := do
  let out ← IO.getStdout
  let err ← IO.getStderr
  for event in m.log do
    out.putStr event.out
    out.flush
    err.putStr (event.err verbose)
  err.flush
  return { m with log := #[] }

/-- Why the file system refused. The code of an error is given as it is or as its negative. -/
def refusalOf : IO.Error → FileRefusal
  | .noFileOrDirectory .. => .noSuchFile
  | .inappropriateType _ code _ =>
    if code = 20 ∨ code = -20 then .notADirectory else .isDirectory
  | .invalidArgument _ code description =>
    if code = 36 ∨ code = -36 then .nameTooLong else .other 22 description
  | .permissionDenied .. => .other 13 "Permission denied"
  | e => .other 5 (toString e)

/-- What using a file gives; a path with a NUL is refused before it is used. -/
def useFile {α : Type} (path : String) (act : IO α) : IO (Except Fault α) := do
  if path.toList.contains (Char.ofNat 0) then return .error .nulInPath
  try return .ok (← act)
  catch e => return .error (.fileRefused (refusalOf e) path)

def readFile (path : String) : IO (Except Fault (List UInt8)) :=
  useFile path do return (← IO.FS.readBinFile path).toList

def writeFile (path : String) (bytes : List UInt8) : IO (Except Fault Unit) :=
  useFile path (IO.FS.writeBinFile path ⟨bytes.toArray⟩)

/-- Performs an action and shows its events; nothing when it failed, which is then said. -/
def perform {α : Type} (o : Options) (action : Action α) (m : Machine) :
    IO (Option α × Machine) := do
  match (action <* CommandLine.checkLimits o 0) m with
  | .ok a m => return (some a, ← flushEvents o.verbose m)
  | .error failure m =>
    let m ← flushEvents o.verbose m
    let text :=
      match failure with
      | .complaint c => c.message
      | .fault fault => fault.message
    IO.eprintln text
    return (none, m)

/-- Runs the listing to its end, showing its events on the way. -/
partial def runOn (o : Options) (m : Machine) : IO (Option Outcome × Machine) := do
  match m.steps burst with
  | .running m => runOn o (← flushEvents o.verbose m)
  | last =>
    let (outcome, m) ← perform o (Action.settle last) m
    return (outcome.join, m)

def run (o : Options) (m : Machine) : IO (Option Outcome × Machine) :=
  runOn o m.start

/-- Loads a file; whether that succeeded, unless it failed altogether. -/
def load (o : Options) (path : String) (m : Machine) : IO (Option Bool × Machine) := do
  perform o (Action.tryLoad path (← readFile path)) m

/-- Carries out a command; whether the dialog goes on, unless it failed. -/
def obey (o : Options) (command : Command) (m : Machine) : IO (Option Bool × Machine) := do
  match command with
  | .load path =>
    let (done, m) ← load o path m
    return (done.map fun _ => true, m)
  | .save path =>
    let contents := m.listing.dump.map (·.toUTF8.toList)
    let opened ← writeFile path (contents.toOption.getD [])
    let written := opened.bind fun () => contents.map fun _ => ()
    let (done, m) ← perform o (Action.trySaved path written) m
    return (done.map fun _ => true, m)
  | .run =>
    let (outcome, m) ← run o m
    return (outcome.map fun _ => true, m)
  | command => perform o (Action.perform command) m

/-- Prompts for lines and obeys them; the exit code. -/
partial def converse (o : Options) (m : Machine) : IO UInt32 := do
  let m ← flushEvents o.verbose (m.note .prompt)
  let line ← (← IO.getStdin).getLine
  if line.isEmpty then return 0
  match ← obey o (Command.ofLine line.toList) m with
  | (some true, m) => converse o m
  | (some false, _) => return 0
  | (none, _) => return 1

/-- Loads and runs a program; the exit code. -/
def runProgram (o : Options) (path : String) (m : Machine) : IO UInt32 := do
  match ← load o path m with
  | (some true, m) =>
    match ← run o m with
    | (some outcome, _) => return if outcome.ok then 0 else 1
    | (none, _) => return 1
  | _ => return 1

end LineBasic.Main

open LineBasic in
def main (arguments : List String) : IO UInt32 := do
  match Options.ofArguments arguments with
  | .error .help =>
    IO.print CommandLine.help
    return 0
  | .error (.usage e) =>
    IO.eprint (CommandLine.errorText e)
    return 2
  | .ok o =>
    let m := CommandLine.machineFor o
    match o.program.filter (!·.isEmpty) with
    | some path => Main.runProgram o path m
    | none => Main.converse o (m.note .banner)
