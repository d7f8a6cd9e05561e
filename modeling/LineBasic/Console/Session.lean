/-
  LineBasic.Console.Session

  A machine at a console. The console shows complaints and refusals of the file system and goes on;
  any other fault ends the dialog.

  What a command does to the machine is said apart from where files are kept: `Action.tryLoad` takes
  what reading the file gave, `Action.saved` what writing it gave. `Session` keeps the files on a
  `Disk`.
-/
import LineBasic.Console.Command
import LineBasic.Disk
import LineBasic.Machine.Run
import LineBasic.Text.Utf8

namespace LineBasic

/-! ## Files -/

namespace Action

/-- Loads the contents of a file. -/
def loadFile (contents : Except Fault (List UInt8)) : Action Unit :=
  match contents with
  | .error fault => fail fault
  | .ok bytes =>
    match Text.Utf8.decode bytes with
    | .error flaw => fail (.undecodable flaw)
    | .ok text => load (Text.unifyNewlines text)

/-- Loads the contents of a file; whether that succeeded. -/
def tryLoad (path : String) (contents : Except Fault (List UInt8)) : Action Bool := do
  try
    loadFile contents
    return true
  catch
    | .complaint c =>
      note (.loadFailed path c.message)
      return false
    | .fault fault =>
      if fault.isRefusal then
        note (.loadFailed path fault.message)
        return false
      else fail fault

/-- What a saved file holds, unless the listing cannot be put into words. -/
def fileContents : Action (Except Fault (List UInt8)) := do
  return (← get).listing.dump.map (·.toUTF8.toList)

/-- Notes what became of saving the listing. -/
def saved (path : String) (written : Except Fault Unit) : Action Unit := do
  match written with
  | .ok () => note (.saved (← get).listing.lines.length path)
  | .error fault => fail fault

/-- Notes what became of saving the listing, also when the file system refused. -/
def trySaved (path : String) (written : Except Fault Unit) : Action Unit := do
  try saved path written
  catch
    | .fault fault =>
      if fault.isRefusal then note (.saveFailed path fault.message) else fail fault
    | failure => throw failure

/-- Applies a typed program line; a complaint is shown. -/
def tryEnter (raw : List Char) : Action Unit := do
  try enter raw
  catch
    | .complaint c => note (.lineRefused c)
    | failure => throw failure

/-- Carries out a command that neither needs a file nor runs the listing; whether the dialog goes
    on. -/
def perform : Command → Action Bool
  | .programLine text => do
    tryEnter text
    return true
  | .fileNameMissing command => do
    note (.fileNameMissing command)
    return true
  | .list => do
    list
    return true
  | .new => do
    new
    return true
  | .unknown word => do
    note (.unknownCommand word)
    return true
  | .quit => return false
  | .nothing | .load _ | .save _ | .run => return true

end Action

/-! ## Sessions -/

structure Session where
  machine : Machine := {}
  disk : Disk := {}

abbrev Dialog := EStateM Failure Session

namespace Dialog

def act {α : Type} (action : Action α) : Dialog α := fun s =>
  match action s.machine with
  | .ok a machine => .ok a { s with machine }
  | .error failure machine => .error failure { s with machine }

def loadFile (path : String) : Dialog Unit := do
  let contents := (← get).disk.read path
  act (Action.loadFile contents)

/-- Loads a file; whether that succeeded. -/
def tryLoad (path : String) : Dialog Bool := do
  let contents := (← get).disk.read path
  act (Action.tryLoad path contents)

/-- Writes the listing to a file, and then does what follows from how that went. The file is opened
    before the listing is put into words, and stays empty if that fails. -/
def saveWith (path : String) (after : Except Fault Unit → Action Unit) : Dialog Unit := do
  let contents ← act Action.fileContents
  match (← get).disk.write path (contents.toOption.getD []) with
  | .ok disk =>
    modify ({ · with disk })
    act (after (contents.map fun _ => ()))
  | .error fault => act (after (.error fault))

def saveFile (path : String) : Dialog Unit :=
  saveWith path (Action.saved path)

/-- Carries out a command; whether the dialog goes on. A run takes at most `fuel` lines. -/
def perform (fuel : Nat) : Command → Dialog Bool
  | .load path => do
    let _ ← tryLoad path
    return true
  | .save path => do
    saveWith path (Action.trySaved path)
    return true
  | .run => do
    let _ ← act (Action.run fuel)
    return true
  | command => act (Action.perform command)

/-- Carries out what a typed line asks for; whether the dialog goes on. -/
def handle (fuel : Nat) (line : List Char) : Dialog Bool :=
  perform fuel (Command.ofLine line)

/-- Prompts for lines and answers them until one ends the dialog or there are no more. -/
def converse (answer : List Char → Dialog Bool) : List (List Char) → Dialog Unit
  | [] => act (Action.note .prompt)
  | line :: rest => do
    act (Action.note .prompt)
    if ← answer line then converse answer rest

/-- The dialog over the lines of a text; `answer` says whether it goes on after a line. -/
def loop (answer : List Char → Dialog Bool) (input : List Char) : Dialog Unit := do
  act (Action.note .banner)
  converse answer (Text.splitFeeds input)

end Dialog

end LineBasic
