/-
  LineBasic.Machine.Run

  Running a listing: one line after the other, until a line halts the machine, complains or fails,
  or until the last line is passed.

  `Machine.step` executes one line, `Machine.steps` at most a given number of lines. A run starts
  with all variables zero and no loop open, and its listing is locked until it is over.
-/
import LineBasic.Machine.Exec

namespace LineBasic

/-- How a run ends. -/
inductive Outcome where
  /-- `END` was executed, at the line with this number. -/
  | ended (line : Int)
  /-- The last line was passed. -/
  | passedEnd
  | halted (line : Int) (complaint : Complaint)
  deriving Repr, DecidableEq

def Outcome.ok : Outcome → Bool
  | .halted .. => false
  | _ => true

/-- The machine after a line: in the middle of the run, at its end, or stopped by a fault. -/
inductive Step where
  | running (m : Machine)
  | finished (m : Machine) (outcome : Outcome)
  | faulted (m : Machine) (fault : Fault)

namespace Machine

/-- The machine with all variables zero, no open loop, and the first line to execute. -/
def reset (m : Machine) : Machine :=
  { m with memory := .empty, frames := [], pc := 0 }

/-- Ends a run with a complaint about the line with a number. A number that cannot be written stops
    the run before anything is reported. -/
def halt (m : Machine) (line : Int) (c : Complaint) : Step :=
  if Text.isWritable line then .finished (m.note (.runHalted line c)) (.halted line c)
  else .faulted m .unwritable

/-- Executes the next line. -/
def step (m : Machine) : Step :=
  match m.listing.lines[m.pc]? with
  | none => .finished m .passedEnd
  | some line =>
    match Action.execLine line m with
    | .ok .next m => .running { m with pc := m.pc + 1 }
    | .ok .jump m => .running m
    | .ok .halt m => .finished m (.ended line.number)
    | .error (.complaint c) m => m.halt line.number c
    | .error (.fault fault) m => .faulted m fault

/-- Executes at most `fuel` lines. -/
def steps (fuel : Nat) (m : Machine) : Step :=
  match fuel with
  | 0 => .running m
  | fuel + 1 =>
    match m.step with
    | .running m => m.steps fuel
    | last => last

/-- The machine at the start of a run. -/
def start (m : Machine) : Machine :=
  let m := { m.reset with running := true, listing := { m.listing with locked := true } }
  m.note (.runStarted m.listing.lines.length)

/-- The machine after a run. -/
def release (m : Machine) : Machine :=
  { m with running := false, listing := { m.listing with locked := false } }

end Machine

namespace Action

def reset : Action Unit := modify (·.reset)

/-- Clears the listing and the variables. -/
def new : Action Unit := do
  edit (·.clear)
  reset

/-- Leaves the run when it is over; a run that is not is left where it is. -/
def settle : Step → Action (Option Outcome)
  | .running m => do
    set m
    return none
  | .finished m outcome => do
    set m.release
    return some outcome
  | .faulted m fault => do
    set m.release
    fail fault

/-- Runs the listing for at most `fuel` lines. -/
def run (fuel : Nat) : Action (Option Outcome) := do
  let m ← get
  if m.running then fail .alreadyRunning else settle (m.start.steps fuel)

/-! ## Editing -/

/-- Applies a typed program line. -/
def enter (raw : List Char) : Action Unit := do
  match Entry.ofText raw none with
  | .ok entry => edit (·.enter entry)
  | .error failure => throw failure

/-- Replaces the listing by the lines of a text. -/
def load (text : List Char) : Action Unit := do
  let loading := (← get).listing.load text
  modify ({ · with listing := loading.listing })
  modify (·.noteAll (loading.dropped.map .lineDropped))
  match loading.outcome with
  | .ok () => note (.loaded loading.listing.lines.length)
  | .error failure => throw failure

def list : Action Unit := do
  match (← get).listing.dump with
  | .ok text => note (.listed text)
  | .error fault => fail fault

end Action

end LineBasic
