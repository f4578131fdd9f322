import DecimalMachine.Proofs.Plan
import DecimalMachine.Console.Input
import DecimalMachine.Console.Transcript
import DecimalMachine.Run

/-!
A failed step changes nothing that a program can see.

Memory, accumulator, index register, counter, count and trace flag are those from before the step.
A machine that has stopped stays as it is under any further calls.
-/

namespace DecimalMachine

variable {ι ω : Type}

/-- Everything but the instruction register and the run state is the same. -/
structure Machine.SameProgramState (before after : Machine) : Prop where
  memory : after.memory = before.memory
  accumulator : after.registers.accumulator = before.registers.accumulator
  index : after.registers.index = before.registers.index
  counter : after.registers.counter = before.registers.counter
  cycles : after.cycles = before.cycles
  trace : after.trace = before.trace

/-- The failures in front of the instruction: the machine had stopped, or there was no word. -/
def StepError.isRefusal : StepError → Bool
  | .notRunning _ => true
  | .memory _ => true
  | .fault _ => false
  | .io _ => false

structure FailedStep (before : Session ι ω) (e : StepError) (after : Session ι ω) : Prop where
  same : before.machine.SameProgramState after.machine
  refused : e.isRefusal → after = before
  fetched : e.isRefusal = false → before.machine.memory.read before.machine.registers.counter =
    .ok after.machine.registers.instruction
  faulted_iff : e.isRefusal = false →
    ∀ fault, after.machine.state = .faulted fault ↔ e = .fault fault
  location : ∀ fault, e = .fault fault → fault.location = before.machine.registers.counter
  running : ∀ failure, e = .io failure → after.machine.state = .running

variable [Source ι] [Sink ω]

theorem step_failed {before after : Session ι ω} {e : StepError}
    (failed : step before = .error e after) : FailedStep before e after := by
  obtain ⟨m, c⟩ := before
  have ended := step_cases m c
  rw [failed] at ended
  cases ended with
  | stopped | unreadable =>
    exact ⟨⟨rfl, rfl, rfl, rfl, rfl, rfl⟩, fun _ => rfl, nofun, nofun, nofun, nofun⟩
  | broken running fetched performed =>
    refine ⟨⟨rfl, rfl, rfl, rfl, rfl, rfl⟩, nofun, fun _ => fetched, ?_, nofun, fun _ _ => running⟩
    intro _ fault
    constructor
    · intro faulted
      cases faulted.symm.trans running
    · nofun
  | @faulted w fault c' running fetched performed =>
    have raised := (Machine.perform_settles performed).faultOf
    refine ⟨⟨rfl, rfl, rfl, rfl, rfl, rfl⟩, nofun, fun _ => fetched, ?_, ?_, nofun⟩
    · intro _ fault'
      simp only [State.faulted.injEq, StepError.fault.injEq]
    · intro fault' same
      cases same
      exact raised.location

theorem step_not_running_iff (session : Session ι ω) (state : State) :
    (∃ after, step session = .error (.notRunning state) after) ↔
      state ≠ .running ∧ session.machine.state = state := by
  obtain ⟨m, c⟩ := session
  constructor
  · rintro ⟨after, failed⟩
    have ended := step_cases m c
    rw [failed] at ended
    cases ended with
    | stopped stopped => exact ⟨stopped, rfl⟩
  · rintro ⟨stopped, rfl⟩
    exact ⟨⟨m, c⟩, by simp only [step, Machine.latch_of_stopped stopped]⟩

theorem step_stopped {session : Session ι ω} (stopped : session.machine.state ≠ .running) :
    step session = .error (.notRunning session.machine.state) session := by
  obtain ⟨m, c⟩ := session
  simp only [step, Machine.latch_of_stopped stopped]

theorem runFor_stopped {session : Session ι ω} (stopped : session.machine.state ≠ .running)
    (n : Nat) : runFor n session = .ok () session := by
  cases n with
  | zero => rfl
  | succ n => simp [runFor, Machine.isRunning, stopped]

theorem runLimited_stopped {session : Session ι ω} (stopped : session.machine.state ≠ .running)
    (max : UInt64) : runLimited max session = .ok 0 session := by
  simp [runLimited, runFor_stopped stopped]

theorem run_stopped {session : Session ι ω} (stopped : session.machine.state ≠ .running) :
    run session = some (.ok 0 session) := by
  simp [run, runFor_stopped stopped, Machine.isRunning, stopped]

inductive Call where
  | step
  | run
  | runLimited (max : UInt64)

def Call.apply (session : Session ι ω) : Call → Option (Session ι ω)
  | .step => some (endState (DecimalMachine.step session))
  | .run => (DecimalMachine.run session).map endState
  | .runLimited max => some (endState (DecimalMachine.runLimited max session))

theorem calls_stopped {session : Session ι ω} (stopped : session.machine.state ≠ .running)
    (calls : List Call) : calls.foldlM Call.apply session = some session := by
  induction calls with
  | nil => rfl
  | cons call rest ih =>
    have unchanged : Call.apply session call = some session := by
      cases call with
      | step => simp [Call.apply, step_stopped stopped, endState]
      | run => simp [Call.apply, run_stopped stopped, endState]
      | runLimited max => simp [Call.apply, runLimited_stopped stopped, endState]
    rw [List.foldlM_cons, unchanged]
    exact ih

/-- A failed step keeps the state of the program, and a stopped machine stays as it is. -/
theorem step_atomic (session : Session ι ω) :
    (∀ e after, step session = .error e after → FailedStep session e after) ∧
    (∀ state, (∃ after, step session = .error (.notRunning state) after) ↔
      state ≠ .running ∧ session.machine.state = state) ∧
    (session.machine.state ≠ .running →
      (∀ calls : List Call, calls.foldlM Call.apply session = some session) ∧
      run session = some (.ok 0 session) ∧ ∀ max, runLimited max session = .ok 0 session) :=
  ⟨fun _ _ => step_failed, step_not_running_iff session,
    fun stopped => ⟨calls_stopped stopped, run_stopped stopped, runLimited_stopped stopped⟩⟩

def scripted (cells : Array Word) (values : List Int64) : Session Script Transcript :=
  ⟨⟨.zero, ⟨cells⟩, .running, 0, false⟩, ⟨⟨values⟩, {}, {}⟩⟩

/-- The word of an integer, or zero. -/
def Word.ofInt (z : Int) : Word := (ofInt? z).getD zero

def programmed (cells : List Int) (values : List Int64) : Session Script Transcript :=
  scripted (cells.map Word.ofInt).toArray values

-- The session of a `READ` that is given no word.
def misread : Session Script Transcript :=
  scripted #[⟨100000, by decide, by decide⟩] [1000000, 5]

theorem step_atomic_misread :
    (∃ after, step misread = .error (.fault (.invalidInput 1000000 0)) after ∧
      after.console.input.values = [5] ∧
      FailedStep misread (.fault (.invalidInput 1000000 0)) after) ∧
    (endState (step misread)).machine.state ≠ .running ∧
    [Call.step, .runLimited 9, .run].foldlM Call.apply (endState (step misread)) =
      some (endState (step misread)) := by
  have failed : step misread =
    .error (.fault (.invalidInput 1000000 0)) (endState (step misread)) := by rfl
  have stopped : (endState (step misread)).machine.state ≠ .running := by decide
  refine ⟨⟨_, failed, by rfl, ?_⟩, stopped, ?_⟩
  · exact (step_atomic misread).1 _ _ failed
  · exact ((step_atomic (endState (step misread))).2.2 stopped).1 _

end DecimalMachine
