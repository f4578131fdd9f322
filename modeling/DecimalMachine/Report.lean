import DecimalMachine.Dump
import DecimalMachine.Run

/-!
A complete run, reported on the console: a banner, the run itself, how it ended, and a dump.

A `HALT` has the pages dumped that it names; a fault or the limit has page 0 dumped. Any other
failure of a step, such as one of the console, ends the report where it stands.
-/

namespace DecimalMachine

structure Config where
  trace : Bool := true
  maxCycles : Option UInt64 := none

inductive Outcome where
  | halted (first last : UInt64)
  | faulted (fault : Fault)
  | cycleLimit (count : UInt64)
  deriving DecidableEq

namespace Outcome

def exitCode : Outcome → Nat
  | .halted .. => 0
  | .faulted _ => 2
  | .cycleLimit _ => 3

def describe : Outcome → String
  | .halted first last => (State.halted first last).describe
  | .faulted fault => (State.faulted fault).describe
  | .cycleLimit count => s!"CycleLimit({count.toNat})"

def lines : Outcome → List String
  | .halted .. => ["*** Simpletron execution terminated ***"]
  | .faulted fault =>
    ["*** Simpletron execution abnormally terminated ***", "*** " ++ fault.message ++ " ***"]
  | .cycleLimit count =>
    [s!"*** Simpletron execution suspended after {count.toNat} instructions ***"]

def pages : Outcome → UInt64 × UInt64
  | .halted first last => (first, last)
  | _ => (0, 0)

/-- How a run ended that left the machine in this state after `count` instructions. A machine that
did not halt in it counts as suspended. -/
def ofState (count : UInt64) : State → Outcome
  | .halted first last => .halted first last
  | _ => .cycleLimit count

end Outcome

namespace Session

variable {ι ω α : Type}

def onConsole (act : Dialogue ι ω IoError α) : Execution ι ω α := fun ⟨machine, console⟩ =>
  match act console with
  | .ok a console => .ok a ⟨machine, console⟩
  | .error e console => .error (.io e) ⟨machine, console⟩

end Session

variable {ι ω : Type} [Source ι] [Sink ω]

def openReport (config : Config) : Execution ι ω Unit := fun ⟨machine, console⟩ =>
  Session.onConsole (Console.writeLine "*** Program execution begins ***")
    ⟨{ machine with trace := config.trace }, console⟩

def runConfigured (config : Config) (session : Session ι ω) :
    Option (EStateM.Result StepError (Session ι ω) UInt64) :=
  match config.maxCycles with
  | some max => some (runLimited max session)
  | none => run session

def closeReport (outcome : Outcome) : Execution ι ω Outcome := fun session =>
  let dump := session.machine.dumpLines outcome.pages.1 outcome.pages.2
  let report : Dialogue ι ω IoError Outcome := do
    Console.writeLines (outcome.lines ++ dump)
    Console.flush
    return outcome
  Session.onConsole report session

def reportResult : EStateM.Result StepError (Session ι ω) UInt64 →
    EStateM.Result StepError (Session ι ω) Outcome
  | .ok count session => closeReport (.ofState count session.machine.state) session
  | .error (.fault fault) session => closeReport (.faulted fault) session
  | .error e session => .error e session

/-- A complete run with its report. It has no result if the run has none. -/
def execute (config : Config) (session : Session ι ω) :
    Option (EStateM.Result StepError (Session ι ω) Outcome) :=
  match openReport config session with
  | .ok () session => (runConfigured config session).map reportResult
  | .error e session => some (.error e session)

end DecimalMachine
