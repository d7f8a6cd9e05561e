/-
  LineBasic.CommandLine.Run

  A whole invocation: options, then the program to run or the dialog at the console, and the two
  output streams and the exit code it ends with.
-/
import LineBasic.CommandLine.Options
import LineBasic.Console.Session

namespace LineBasic.CommandLine

def usage : String :=
  "usage: tinybasic [-h] [--max-lines MAX_LINES] [--max-for-depth MAX_FOR_DEPTH]\n" ++
  "                 [-v]\n" ++
  "                 [program]\n"

def help : String :=
  usage ++
  "\n" ++
  "Tiny line-numbered BASIC interpreter\n" ++
  "\n" ++
  "positional arguments:\n" ++
  "  program               Program file to load and run\n" ++
  "\n" ++
  "options:\n" ++
  "  -h, --help            show this help message and exit\n" ++
  "  --max-lines MAX_LINES\n" ++
  "                        Maximum number of program lines (default: 1000)\n" ++
  "  --max-for-depth MAX_FOR_DEPTH\n" ++
  "                        Maximum FOR nesting depth (default: 256)\n" ++
  "  -v, --verbose         Debug logging\n"

def errorText (e : Options.UsageError) : String :=
  usage ++ s!"tinybasic: error: {e.message}\n"

/-- What the output stream shows of a log. -/
def outOf (log : Array Event) : String :=
  String.join (log.toList.map (·.out))

/-- What the error stream shows of a log. -/
def errOf (verbose : Bool) (log : Array Event) : String :=
  String.join (log.toList.map (·.err verbose))

/-- How an invocation ends: with an exit code, or by a failure that nothing handled. -/
inductive Ending where
  | exit (code : Nat)
  | failed (failure : Failure)

structure Transcript where
  out : String
  err : String
  ending : Ending
  disk : Disk

/-! ## Limits -/

/-- The machine that the options ask for. A missing limit is zero: it is met where it is first
    needed. -/
def machineFor (o : Options) : Machine :=
  { listing := { capacity := o.maxLines.getD 0 }, maxDepth := o.maxForDepth.getD 0 }

/-- Whether an event is about a limit that is missing. -/
def needsMissing (o : Options) : Event → Bool
  | .lineDropped (.listingFull ..) | .lineRefused (.listingFull ..) => o.maxLines.isNone
  | .runHalted _ .forTooDeep => o.maxForDepth.isNone
  | _ => false

/-- Fails if a missing limit was needed since the log had `since` events; the log ends there. -/
def checkLimits (o : Options) (since : Nat) : Action Unit := do
  let log := (← get).log
  match (log.extract since log.size).findIdx? (needsMissing o) with
  | some i =>
    modify ({ · with log := log.extract 0 (since + i) })
    Action.fail .limitMissing
  | none => return

/-- A part of a dialog that fails if it needs a missing limit. -/
def limited {α : Type} (o : Options) (dialog : Dialog α) : Dialog α := do
  let since := (← get).machine.log.size
  let a ← dialog
  Dialog.act (checkLimits o since)
  return a

/-! ## Invocations -/

/-- The exit code of a run. -/
def exitCode : Option Outcome → Nat
  | some outcome => if outcome.ok then 0 else 1
  | none => 0

/-- Loads and runs a program, or talks with the console when none is named; the exit code. -/
def session (fuel : Nat) (o : Options) (input : List Char) : Dialog Nat := do
  match o.program.filter (!·.isEmpty) with
  | some path =>
    if ← limited o (Dialog.tryLoad path) then
      return exitCode (← limited o (Dialog.act (Action.run fuel)))
    else return 1
  | none =>
    Dialog.loop (fun line => limited o (Dialog.handle fuel line)) input
    return 0

/-- The invocation with some arguments, some input and some files. A run takes at most `fuel`
    lines. -/
def run (fuel : Nat) (arguments : List String) (input : List Char) (disk : Disk) : Transcript :=
  match Options.ofArguments arguments with
  | .error .help => ⟨help, "", .exit 0, disk⟩
  | .error (.usage e) => ⟨"", errorText e, .exit 2, disk⟩
  | .ok o =>
    match session fuel o input { machine := machineFor o, disk } with
    | .ok code s => ⟨outOf s.machine.log, errOf o.verbose s.machine.log, .exit code, s.disk⟩
    | .error failure s =>
      ⟨outOf s.machine.log, errOf o.verbose s.machine.log, .failed failure, s.disk⟩

end LineBasic.CommandLine
