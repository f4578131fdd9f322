import DecimalMachine.Proofs.Footprint
import DecimalMachine.Proofs.Lockstep

/-!
One step of two machines that hold different words at the counter.

If their latched instructions are answered alike, the steps end alike, and the machines differ in
that one cell and in their instruction registers at most, as they did before.
-/

namespace DecimalMachine

/-- Two running machines with trace off that differ in the word at the counter, which is `v` in the
first and `w` in the second, and in their instruction registers. -/
structure Machine.HoldAtCounter (v w : Word) (m n : Machine) : Prop extends
    m.SameBesideMemory n where
  running : m.state = .running
  silent : m.trace = false
  memory : m.memory.AgreeOff {m.location.toNat} n.memory
  here : m.memory.read m.location = .ok v
  there : n.memory.read n.location = .ok w

variable {ι ω ψ : Type}

def toldBy {α : Type} (f : Instruction → α) :
    EStateM.Result StepError (Session ι ω) Instruction → EStateM.Result StepError (Session ι ω) α
  | .ok i after => .ok (f i) after
  | .error e after => .error e after

/-- Two steps with the same outcome, as far as `f` tells of the instructions. They write the same
and take the same input, and the machines that they leave differ in one cell at most, and in their
instruction registers. -/
structure SameStep {α : Type} (f : Instruction → α) (cell : Nat) (holds : ω → String → Prop)
    (holds' : ψ → String → Prop) (text text' : String)
    (r : EStateM.Result StepError (Session ι ω) Instruction)
    (r' : EStateM.Result StepError (Session ι ψ) Instruction) : Prop where
  outcome : Alike (fun after after' => after.machine.SameBesideMemory after'.machine ∧
    after.machine.memory.AgreeOff {cell} after'.machine.memory ∧
    after.console.input = after'.console.input) (toldBy f r) (toldBy f r')
  written : ∃ said, holds (endState r).console.output (text ++ said) ∧
    holds' (endState r').console.output (text' ++ said)

variable [Source ι] [Sink ω] [Sink ψ] {holds : ω → String → Prop} {holds' : ψ → String → Prop}
  {s : Session ι ω} {t : Session ι ψ} {text text' : String} {v w : Word}

theorem sameStep_of_reply {α : Type} {f : Instruction → α} (reliable : Reliable holds)
    (reliable' : Reliable holds') (held : holds s.console.output text)
    (held' : holds' t.console.output text') (input : s.console.input = t.console.input)
    (hold : s.machine.HoldAtCounter v w t.machine)
    (told : f (Instruction.ofWord v) = f (Instruction.ofWord w))
    (reply : (s.machine.withInstruction v).reply s.console.input =
      (t.machine.withInstruction w).reply s.console.input) :
    SameStep f s.machine.location.toNat holds holds' text text' (step s) (step t) := by
  have latched := Machine.latch_of_read hold.running hold.here
  have latched' := Machine.latch_of_read (hold.state ▸ hold.running) hold.there
  have same := hold.toSameBesideMemory.withInstruction v w
  constructor
  · obtain ⟨c, c', input', -, -, stepped, stepped'⟩ :=
      Session.step_replied reliable reliable' held held' latched latched' input reply
    rw [stepped, stepped']
    rcases ((s.machine.withInstruction v).reply s.console.input).settled with e | fault | change
    · exact .error ⟨same, hold.memory, input'⟩
    · exact .error ⟨same.raise fault, hold.memory, input'⟩
    · simp only [Machine.ended, toldBy, Machine.current, Machine.withInstruction, told]
      refine .ok ⟨same.commit change, ?_, input'⟩
      rw [Machine.commit_memory, Machine.commit_memory]
      exact hold.memory.onMemory change
  · have silent : (s.machine.withInstruction v).heading = "" := by
      simp [Machine.heading, Machine.withInstruction, hold.silent]
    have silent' : (t.machine.withInstruction w).heading = "" := by
      simp [Machine.heading, Machine.withInstruction, ← hold.trace, hold.silent]
    have said : s.written = t.written := by
      rw [Session.written_of_latched latched, Session.written_of_latched latched', silent, silent',
        ← input, reply]
    refine ⟨s.written, Session.step_writes reliable held, ?_⟩
    rw [said]
    exact Session.step_writes reliable' held'

end DecimalMachine
