/-
  LineBasic.Machine.Basic

  The machine that executes a listing: the listing, the variables, the open loops and the index of
  the line to execute.

  An `Action` works on the machine and may fail; the machine keeps what was done before the failure.
-/
import LineBasic.Eval
import LineBasic.Event
import LineBasic.Listing.Basic

namespace LineBasic

/-- A loop that is being executed: its variable, its limit and step, and the index of its `FOR`. -/
structure Frame where
  slot : Nat
  limit : Float
  step : Float
  forIndex : Nat

structure Machine where
  listing : Listing := {}
  memory : Memory := .empty
  /-- The open loops, the innermost first. -/
  frames : List Frame := []
  /-- The index of the line to execute. -/
  pc : Nat := 0
  /-- How many loops may be open. -/
  maxDepth : Int := 256
  running : Bool := false
  /-- What happened so far. -/
  log : Array Event := #[]

/-- An action on the machine. -/
abbrev Action := EStateM Failure Machine

namespace Machine

def note (m : Machine) (event : Event) : Machine :=
  { m with log := m.log.push event }

def noteAll (m : Machine) (events : List Event) : Machine :=
  { m with log := m.log ++ events }

end Machine

namespace Action

def complain {α : Type} (c : Complaint) : Action α := throw c.raised

def fail {α : Type} (fault : Fault) : Action α := throw (.fault fault)

def note (event : Event) : Action Unit := modify (·.note event)

/-- Takes the value of a reading, and makes its reports known. -/
def take {α : Type} (read : Memory → Reading α) : Action α := do
  let reading := read (← get).memory
  modify (·.noteAll (reading.reports.map .softRead))
  match reading.outcome with
  | .ok a => return a
  | .error fault => fail fault

/-- Changes the memory by an operation that may fail. -/
def change (f : Memory → Except Failure Memory) : Action Unit := do
  match f (← get).memory with
  | .ok memory => modify ({ · with memory })
  | .error failure => throw failure

/-- Changes the memory by an operation that may fail with a fault. -/
def changeOrFail (f : Memory → Except Fault Memory) : Action Unit :=
  change fun memory => (f memory).mapError .fault

/-- Changes the listing by an edit that may fail. -/
def edit (f : Listing → Except Failure Listing) : Action Unit := do
  match f (← get).listing with
  | .ok listing => modify ({ · with listing })
  | .error failure => throw failure

end Action

end LineBasic
