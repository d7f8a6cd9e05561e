/-
  LineBasic.Event

  What a session has to tell, in the order in which it happens, and the words in which the two
  output streams show it. A verbose session also shows log lines; they go to the error stream.

  An event is told only if the numbers in it can be written. Where one cannot, there is a fault in
  place of the event.
-/
import LineBasic.Complaint

namespace LineBasic

/-- The commands that want a file name. -/
inductive FileCommand where
  | LOAD
  | SAVE
  deriving Repr, DecidableEq

def FileCommand.word : FileCommand → String
  | .LOAD => "LOAD"
  | .SAVE => "SAVE"

inductive Event where
  /-- A line that the program prints. -/
  | printed (text : String)
  | listed (text : String)
  /-- An array read that yielded zero. -/
  | softRead (complaint : Complaint)
  | runStarted (lines : Nat)
  | runHalted (line : Int) (complaint : Complaint)
  | lineDropped (complaint : Complaint)
  | loaded (lines : Nat)
  | saved (lines : Nat) (path : String)
  | banner
  | prompt
  | lineRefused (complaint : Complaint)
  | fileNameMissing (command : FileCommand)
  | loadFailed (path reason : String)
  | saveFailed (path reason : String)
  | unknownCommand (word : String)
  deriving Repr, DecidableEq

namespace Event

/-- A line of the log, under the part of the session that writes it. -/
def logLine (part message : String) : String :=
  s!"tinybasic.{part}: DEBUG: {message}\n"

/-- What the output stream shows. -/
def out : Event → String
  | .printed text => text ++ "\n"
  | .listed text => text
  | .banner => "TinyBASIC - commands: LOAD SAVE LIST RUN NEW QUIT\n"
  | .prompt => "BASIC> "
  | _ => ""

/-- What the error stream shows, log lines left out. -/
def report : Event → String
  | .softRead c => s!"{c.label}: {c.message}\n"
  | .runHalted line c => s!"{c.label} in line {line}: {c.message}\n"
  | .lineDropped c | .lineRefused c => c.message ++ "\n"
  | .fileNameMissing command => s!"Usage: {command.word} filename\n"
  | .loadFailed path _ => s!"Failed to load {path}\n"
  | .saveFailed path _ => s!"Failed to save {path}\n"
  | .unknownCommand word => s!"Unknown command: {word}\n"
  | _ => ""

/-- The log line before the report. -/
def logBefore : Event → String
  | .softRead c => logLine "evaluator" s!"fail-soft array read: {c.message}"
  | .loadFailed path reason => logLine "cli" s!"load of {path} failed: {reason}"
  | .saveFailed _ reason => logLine "cli" s!"save failed: {reason}"
  | .runStarted lines => logLine "runtime" s!"run: {lines} lines"
  | .loaded lines => logLine "program" s!"loaded {lines} lines"
  | .saved lines path => logLine "program" s!"saved {lines} lines to {path}"
  | _ => ""

/-- The log line after the report. -/
def logAfter : Event → String
  | .runHalted line c => logLine "runtime" s!"run halted at line {line}: {c.logged}"
  | _ => ""

/-- What the error stream shows. -/
def err (verbose : Bool) (e : Event) : String :=
  if verbose then e.logBefore ++ e.report ++ e.logAfter else e.report

end Event

end LineBasic
