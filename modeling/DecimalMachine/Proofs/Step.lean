import DecimalMachine.Step

/-!
What one step can do.

`step_cases` lists the five ways in which a step can end, and `perform_settles` says what a
performed instruction can come to. Later modules open a step through these two and never unfold it.
The rest says of each change what it leaves alone.
-/

namespace DecimalMachine

def endState {ε σ α : Type} : EStateM.Result ε σ α → σ
  | .ok _ s => s
  | .error _ s => s

namespace Machine

def withInstruction (m : Machine) (w : Word) : Machine :=
  { m with registers := { m.registers with instruction := w } }

theorem isRunning_iff (m : Machine) : m.isRunning = true ↔ m.state = .running := by
  simp [isRunning]

theorem latch_of_stopped {m : Machine} (stopped : m.state ≠ .running) :
    m.latch = .error (.notRunning m.state) := by
  unfold latch
  split
  · contradiction
  · rfl

theorem latch_of_unreadable {m : Machine} {e : MemoryError} (running : m.state = .running)
    (unreadable : m.memory.read m.location = .error e) : m.latch = .error (.memory e) := by
  simp only [latch, running, unreadable]

theorem latch_of_read {m : Machine} {w : Word} (running : m.state = .running)
    (fetched : m.memory.read m.location = .ok w) : m.latch = .ok (m.withInstruction w) := by
  simp only [latch, running, fetched, withInstruction]

theorem latch_eq_ok {m l : Machine} (latched : m.latch = .ok l) :
    m.state = .running ∧ ∃ w, m.memory.read m.location = .ok w ∧ l = m.withInstruction w := by
  unfold latch at latched
  split at latched
  · rename_i running
    split at latched
    · rename_i w fetched
      cases latched
      exact ⟨running, w, fetched, rfl⟩
    · cases latched
  · cases latched

theorem latch_eq_error {m : Machine} {e : StepError} (refused : m.latch = .error e) :
    e = .notRunning m.state ∨ ∃ e', e = .memory e' := by
  unfold latch at refused
  split at refused
  · split at refused
    · cases refused
    · cases refused
      exact .inr ⟨_, rfl⟩
  · cases refused
    exact .inl rfl

end Machine

variable {ι ω : Type} [Source ι] [Sink ω]

/-- The ways in which a step of a machine at its console can end. -/
inductive StepEnd (m : Machine) (c : Console ι ω) :
    EStateM.Result StepError (Session ι ω) Instruction → Prop where
  | stopped (stopped : m.state ≠ .running) : StepEnd m c (.error (.notRunning m.state) ⟨m, c⟩)
  | unreadable {e : MemoryError} (running : m.state = .running)
      (unreadable : m.memory.read m.location = .error e) :
      StepEnd m c (.error (.memory e) ⟨m, c⟩)
  | broken {w : Word} {e : IoError} {c' : Console ι ω} (running : m.state = .running)
      (fetched : m.memory.read m.location = .ok w)
      (performed : (m.withInstruction w).perform c = .error e c') :
      StepEnd m c (.error (.io e) ⟨m.withInstruction w, c'⟩)
  | faulted {w : Word} {fault : Fault} {c' : Console ι ω} (running : m.state = .running)
      (fetched : m.memory.read m.location = .ok w)
      (performed : (m.withInstruction w).perform c = .ok (.error fault) c') :
      StepEnd m c (.error (.fault fault) ⟨{ m.withInstruction w with state := .faulted fault }, c'⟩)
  | completed {w : Word} {change : Change} {c' : Console ι ω} (running : m.state = .running)
      (fetched : m.memory.read m.location = .ok w)
      (performed : (m.withInstruction w).perform c = .ok (.ok change) c') :
      StepEnd m c (.ok (Instruction.ofWord w) ⟨(m.withInstruction w).commit change, c'⟩)

theorem step_cases (m : Machine) (c : Console ι ω) : StepEnd m c (step ⟨m, c⟩) := by
  by_cases running : m.state = .running
  · cases fetched : m.memory.read m.location with
    | error e =>
      simp only [step, Machine.latch_of_unreadable running fetched]
      exact .unreadable running fetched
    | ok w =>
      simp only [step, Machine.latch_of_read running fetched]
      cases performed : (m.withInstruction w).perform c with
      | error e c' => exact .broken running fetched performed
      | ok settled c' =>
        cases settled with
        | error fault => exact .faulted running fetched performed
        | ok change => exact .completed running fetched performed
  · simp only [step, Machine.latch_of_stopped running]
    exact .stopped running

theorem bind_eq_ok {ε σ α β : Type} {act : EStateM ε σ α} {next : α → EStateM ε σ β} {b : β}
    {s s' : σ} (done : (act >>= next) s = .ok b s') :
    ∃ a s₁, act s = .ok a s₁ ∧ next a s₁ = .ok b s' := by
  simp only [bind, EStateM.bind] at done
  split at done
  · rename_i a s₁ first
    exact ⟨a, s₁, first, done⟩
  · cases done

namespace Machine

/-- What the latched instruction can come to: what was planned, or what was made of a read value. -/
inductive Settles (m : Machine) : Except Fault Change → Prop where
  | refused {fault : Fault} (planned : m.plan m.current = .error fault) : Settles m (.error fault)
  | changed {change : Change} (planned : m.plan m.current = .ok (.change change)) :
      Settles m (.ok change)
  | printed {w : Word} (planned : m.plan m.current = .ok (.print w)) : Settles m (.ok .nothing)
  | answered {address : UInt64} (value : Option Int64)
      (planned : m.plan m.current = .ok (.ask address)) : Settles m (m.receive address value)

theorem perform_settles {m : Machine} {c c' : Console ι ω} {settled : Except Fault Change}
    (performed : m.perform c = .ok settled c') : m.Settles settled := by
  obtain ⟨_, c₁, _, performed⟩ := bind_eq_ok performed
  cases planned : m.plan m.current with
  | error fault =>
    simp only [planned] at performed
    obtain ⟨_, _, refused, noticed⟩ := bind_eq_ok performed
    obtain ⟨_, _, _, returned⟩ := bind_eq_ok noticed
    cases refused
    cases returned
    exact .refused planned
  | ok action =>
    simp only [planned] at performed
    obtain ⟨_, _, acted, noticed⟩ := bind_eq_ok performed
    obtain ⟨_, _, _, returned⟩ := bind_eq_ok noticed
    cases returned
    cases action with
    | change change =>
      cases acted
      exact .changed planned
    | print w =>
      obtain ⟨_, _, _, written⟩ := bind_eq_ok acted
      cases written
      exact .printed planned
    | ask address =>
      obtain ⟨_, _, _, asked⟩ := bind_eq_ok acted
      obtain ⟨value, _, _, answered⟩ := bind_eq_ok asked
      cases answered
      exact .answered value planned

/-! ### What a change leaves alone -/

theorem commit_cycles (m : Machine) (change : Change) :
    (m.commit change).cycles = m.cycles + 1 := by
  cases change <;> rfl

theorem commit_instruction (m : Machine) (change : Change) :
    (m.commit change).registers.instruction = m.registers.instruction := by
  cases change <;> rfl

theorem commit_trace (m : Machine) (change : Change) : (m.commit change).trace = m.trace := by
  cases change <;> rfl

theorem commit_size (m : Machine) (change : Change) :
    (m.commit change).memory.cells.size = m.memory.cells.size := by
  cases change with
  | store address w => exact Memory.size_set m.memory address w
  | _ => rfl

theorem commit_state (m : Machine) (change : Change) :
    (m.commit change).state = match change with
      | .halt first last => .halted first last
      | _ => m.state := by
  cases change <;> rfl

theorem jump_counter_lt (r : Registers) (target : UInt64) :
    (r.jump target).counter.toNat < Memory.pageSize := by
  unfold Registers.jump
  split
  · assumption
  · exact Nat.zero_lt_succ 99

theorem commit_counter_lt {m : Machine} (confined : m.registers.counter.toNat < Memory.pageSize)
    (change : Change) : (m.commit change).registers.counter.toNat < Memory.pageSize := by
  cases change with
  | halt first last => exact confined
  | _ => exact jump_counter_lt _ _

end Machine

end DecimalMachine
