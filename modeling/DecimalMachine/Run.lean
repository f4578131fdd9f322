import DecimalMachine.Step

/-!
Runs: steps for as long as the machine is running, with a limit or without one.

An instruction that is completed when the count is full breaks the process off. A limited run always
ends, and never comes to that. A run without a limit has a result if the machine stops, or a step
fails, before; it has none if it is broken off there. A step that fails is not counted, so that it
may fail even when the count is full. No run takes a completed step from a full count.
-/

namespace DecimalMachine

variable {ι ω : Type} [Source ι] [Sink ω]

def fullCount : Nat := 18446744073709551615

def runFor : Nat → Execution ι ω Unit
  | 0 => pure ()
  | n + 1 => fun session =>
    if session.machine.isRunning then
      match step session with
      | .ok _ session => runFor n session
      | .error e session => .error e session
    else .ok () session

def Machine.countLeft (m : Machine) : Nat := fullCount - m.cycles.toNat

/-- At most `max` steps, as far as they can be counted. Returns how many there were. -/
def runLimited (max : UInt64) : Execution ι ω UInt64 := fun session =>
  let start := session.machine.cycles
  match runFor (min max.toNat session.machine.countLeft) session with
  | .ok () session => .ok (session.machine.cycles - start) session
  | .error e session => .error e session

/-- The step of a run whose count is full. If it is completed, the process is broken off. -/
def atFullCount (session : Session ι ω) :
    Option (EStateM.Result StepError (Session ι ω) UInt64) :=
  match step session with
  | .ok _ _ => none
  | .error e session => some (.error e session)

def run (session : Session ι ω) : Option (EStateM.Result StepError (Session ι ω) UInt64) :=
  let start := session.machine.cycles
  match runFor session.machine.countLeft session with
  | .ok () session =>
    if session.machine.isRunning then atFullCount session
    else some (.ok (session.machine.cycles - start) session)
  | .error e session => some (.error e session)

end DecimalMachine
