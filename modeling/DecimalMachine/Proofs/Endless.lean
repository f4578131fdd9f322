import DecimalMachine.Proofs.Faults
import DecimalMachine.Proofs.Intake

/-!
Pages that are never left.

A machine whose first page holds nothing but tireless operations runs for as long as it is allowed
to: none of them halts, faults, stores or reads, and the counter cannot leave the page. `Tireless`
is the invariant of its steps. Without branches the counter goes round the page, one location a
step.
-/

namespace DecimalMachine

namespace Opcode

def branches : List Opcode := [.branch, .branchNeg, .branchZero]

/-- The operations that always complete, and leave memory and input alone. -/
def tireless : List Opcode :=
  [.write, .load, .loadImmediate, .loadIndex, .increment, .decrement] ++ branches

theorem ne_of_tireless {op : Opcode} (tireless : op ∈ Opcode.tireless) :
    op ≠ .read ∧ op ≠ .halt := by
  constructor
  · rintro rfl
    exact absurd tireless (by decide)
  · rintro rfl
    exact absurd tireless (by decide)

theorem not_tireless_of_overwrites {op : Opcode} (overwrites : op.overwrites = true) :
    op ∉ tireless := by
  rcases overwrites_iff.mp overwrites with rfl | rfl | rfl <;> decide

theorem Combines.not_tireless {x y value : Int} {op : Opcode} (combines : Combines x y op value) :
    op ∉ tireless := by
  cases combines <;> decide

end Opcode

/-- The operation of every cell of the first page is one of these. -/
def Memory.PageOf (m : Memory) (operations : Opcode → Prop) : Prop :=
  ∀ address < 100, ∀ w, m.cells[address]? = some w → operations (Instruction.ofWord w).opcode

theorem Registers.advance_counter {r : Registers} (confined : r.counter.toNat < 100) :
    r.advance.counter.toNat = (r.counter.toNat + 1) % 100 := by
  have next := r.next_toNat (Nat.lt_trans confined (by decide))
  simp only [advance, jump, next, Memory.pageSize]
  split
  · omega
  · simp only [UInt64.reduceToNat]
    omega

namespace Machine

variable {m l : Machine}

structure Tireless (m : Machine) : Prop where
  running : m.state = .running
  size : m.memory.cells.size = Memory.capacity
  counter : m.registers.counter.toNat < Memory.pageSize
  page : m.memory.PageOf (· ∈ Opcode.tireless)

theorem Raises.not_tireless {i : Instruction} {fault : Fault} (raises : m.Raises i fault) :
    i.opcode ∉ Opcode.tireless := by
  have indexed : ∀ op ∈ Opcode.indexedForms, op ∉ Opcode.tireless := by decide
  cases raises with
  | unknownOpcode code op => simp [op, Opcode.tireless, Opcode.branches]
  | outOfRange op => exact indexed _ op
  | divisionByZero op => rcases op with op | op <;> rw [op] <;> decide
  | combined works carried => exact carried.not_tireless
  | swapped op | invalidInput op | inputExhausted op =>
    rw [op]
    decide

theorem Settles.ne_halt {change : Change} (settles : m.Settles (.ok change))
    (op : m.current.opcode ∈ Opcode.tireless) (first last : UInt64) :
    change ≠ .halt first last := by
  rintro rfl
  exact (Opcode.ne_of_tireless op).2 settles.of_halt.1

theorem Settles.tireless {change : Change} (settles : m.Settles (.ok change))
    (op : m.current.opcode ∈ Opcode.tireless) :
    (m.commit change).state = m.state ∧ (m.commit change).memory = m.memory := by
  constructor
  · rw [commit_state]
    cases change with
    | halt first last => cases settles.ne_halt op first last rfl
    | _ => rfl
  · rw [commit_memory]
    cases settles.overwriting with
    | stored overwrites => cases Opcode.not_tireless_of_overwrites overwrites op
    | spared _ same => exact same _

theorem Settles.of_jump {target : UInt64} (settles : m.Settles (.ok (.jump target))) :
    m.current.opcode ∈ Opcode.branches := by
  cases settles.makes with
  | planned _ action =>
    cases action with
    | jump _ op => rcases op with op | op | op <;> rw [op] <;> decide

theorem Settles.counter {change : Change} (settles : m.Settles (.ok change))
    (confined : m.registers.counter.toNat < 100) (op : m.current.opcode ∈ Opcode.tireless)
    (straight : m.current.opcode ∉ Opcode.branches) :
    (m.commit change).registers.counter.toNat = (m.registers.counter.toNat + 1) % 100 := by
  cases change with
  | halt first last => cases settles.ne_halt op first last rfl
  | jump target => cases straight settles.of_jump
  | _ => exact Registers.advance_counter confined

namespace Tireless

theorem sound (tireless : m.Tireless) : m.Sound :=
  .start tireless.running tireless.size tireless.counter

theorem latched (tireless : m.Tireless) {operations : Opcode → Prop}
    (page : m.memory.PageOf operations) (latched : m.latch = .ok l) :
    operations l.current.opcode := by
  obtain ⟨address, bound, cell⟩ := tireless.sound.latch_confined latched
  exact page address bound _ cell

end Tireless

end Machine

/-! ### Steps -/

variable {ι ω : Type} [Source ι] [Sink ω] {holds : ω → String → Prop} {text : String}
  {s after : Session ι ω}

/-- What a tireless machine has become `n` steps later. -/
structure Session.GoesOn (s : Session ι ω) (n : Nat) (after : Session ι ω) : Prop where
  tireless : after.machine.Tireless
  memory : after.machine.memory = s.machine.memory
  input : after.console.input = s.console.input
  counter : s.machine.memory.PageOf (· ∉ Opcode.branches) →
    after.machine.registers.counter.toNat = (s.machine.registers.counter.toNat + n) % 100

omit [Source ι] [Sink ω] in
theorem Session.GoesOn.trans {middle : Session ι ω} {n k : Nat} (first : s.GoesOn n middle)
    (second : middle.GoesOn k after) : s.GoesOn (n + k) after where
  tireless := second.tireless
  memory := second.memory.trans first.memory
  input := second.input.trans first.input
  counter straight := by
    have counter := second.counter (first.memory ▸ straight)
    rw [first.counter straight] at counter
    omega

section Reliably

variable (reliable : Reliable holds) (held : holds s.console.output text)

include reliable held

theorem Machine.Tireless.completes (tireless : s.machine.Tireless) :
    ∃ i after, step s = .ok i after := by
  cases stepped : step s with
  | ok i after => exact ⟨i, after, rfl⟩
  | error e last =>
    have op {l : Machine} (latched : s.machine.latch = .ok l) :
        l.current.opcode ∈ Opcode.tireless :=
      tireless.latched tireless.page latched
    rcases failed_step_cause reliable held tireless.sound tireless.running stepped with
      ⟨fault, rfl, -⟩ | ⟨_, -, ⟨l, latched, read⟩, -⟩
    · obtain ⟨i, next, raises⟩ := step_raises tireless.sound stepped
      obtain ⟨l, latched⟩ := tireless.sound.latches tireless.running
      cases (Machine.next?_of_latched latched).symm.trans next
      cases raises.not_tireless (op latched)
    · cases (Opcode.ne_of_tireless (op latched)).1 read

theorem Machine.Tireless.goesOn (tireless : s.machine.Tireless) {i : Instruction}
    (done : step s = .ok i after) :
    s.GoesOn 1 after ∧ ∃ text', holds after.console.output text' := by
  obtain ⟨l, change, latched, came, rfl, machine, input, heard⟩ :=
    Session.settled_of_done reliable held done
  have op := tireless.latched tireless.page latched
  have settles := Machine.reply_settles came
  have sound := tireless.sound.completed done
  have spared : (l.reply s.console.input).input = s.console.input := by
    obtain ⟨settled, said, -, -, reply⟩ := Machine.reply_of_other (Opcode.ne_of_tireless op).1
    rw [reply]
  obtain ⟨state, memory⟩ := settles.tireless op
  rw [← machine] at state memory
  obtain ⟨running, w, -, rfl⟩ := Machine.latch_eq_ok latched
  have kept : after.machine.memory = s.machine.memory := memory
  refine ⟨⟨⟨state.trans running, sound.size, sound.counter, kept ▸ tireless.page⟩, kept,
    input.trans spared, ?_⟩, heard⟩
  intro straight
  rw [machine]
  exact settles.counter tireless.counter op (tireless.latched straight latched)

theorem Machine.Tireless.steps (tireless : s.machine.Tireless) (n : Nat) :
    ∃ passed after, Steps s passed after ∧ passed.length = n ∧ s.GoesOn n after := by
  induction n generalizing s text with
  | zero =>
    refine ⟨[], s, .none s, rfl, tireless, rfl, rfl, ?_⟩
    intro _
    exact (Nat.mod_eq_of_lt tireless.counter).symm
  | succ n ih =>
    obtain ⟨i, middle, done⟩ := tireless.completes reliable held
    obtain ⟨first, _, heard⟩ := tireless.goesOn reliable held done
    obtain ⟨passed, after, steps, length, rest⟩ := ih heard first.tireless
    have goesOn := first.trans rest
    rw [Nat.add_comm] at goesOn
    exact ⟨s :: passed, after, .more done steps, congrArg Nat.succ length, goesOn⟩

/-- A machine whose first page holds nothing but tireless operations uses up every limit. -/
theorem endless_page (running : s.machine.state = .running)
    (size : s.machine.memory.cells.size = 10000) (counter : s.machine.registers.counter.toNat < 100)
    (page : ∀ address < 100, ∀ w, s.machine.memory.cells[address]? = some w →
      (Instruction.ofWord w).opcode ∈ Opcode.tireless)
    (n : UInt64) (room : s.machine.cycles.toNat + n.toNat ≤ 18446744073709551615) :
    ∃ after, runLimited n s = .ok n after ∧ after.machine.state = .running ∧
      after.machine.memory = s.machine.memory ∧ after.console.input = s.console.input ∧
      after.machine.registers.counter.toNat < 100 ∧
      ((∀ address < 100, ∀ w, s.machine.memory.cells[address]? = some w →
          (Instruction.ofWord w).opcode ∉ Opcode.branches) →
        after.machine.registers.counter.toNat =
          (s.machine.registers.counter.toNat + n.toNat) % 100) := by
  have tireless : s.machine.Tireless := ⟨running, size, counter, page⟩
  obtain ⟨passed, after, steps, length, goesOn⟩ := tireless.steps reliable held n.toNat
  have limit : passed.length = min n.toNat s.machine.countLeft := by
    simp only [Machine.countLeft, fullCount]
    omega
  refine ⟨after, runLimited_ok_iff.mpr ⟨passed, steps, limit.le, ?_, length.symm⟩,
    goesOn.tireless.running, goesOn.memory, goesOn.input, goesOn.tireless.counter, goesOn.counter⟩
  intro fewer
  exact absurd limit fewer.ne

end Reliably

-- Every cell is an `INC`; the counter is near the end of the page.
def counting : Session Script Transcript :=
  ⟨{ Machine.fresh with
      memory := ⟨Array.replicate 10000 (.ofInt 380000)⟩
      registers := { Registers.zero with counter := 97 } }, ⟨⟨[5]⟩, {}, {}⟩⟩

theorem endless_page_counting :
    ∃ after, runLimited 250 counting = .ok 250 after ∧ after.machine.state = .running ∧
      after.console.input.values = [5] ∧ after.machine.registers.counter.toNat = 47 := by
  have increments (operations : Opcode → Prop) (increment : operations .increment) :
      counting.machine.memory.PageOf operations := by
    intro address bound w cell
    have read : counting.machine.memory.cells[address]? = some (.ofInt 380000) := by
      simp only [counting, Array.getElem?_replicate, if_pos (show address < 10000 by omega)]
    cases read.symm.trans cell
    exact increment
  obtain ⟨after, ran, running, -, input, -, counter⟩ :=
    endless_page Transcript.reliable (s := counting) ⟨rfl, rfl⟩ rfl Array.size_replicate (by decide)
      (increments (· ∈ Opcode.tireless) (by decide)) 250 (by decide)
  have moved := counter (increments (· ∉ Opcode.branches) (by decide))
  exact ⟨after, ran, running, congrArg Script.values input, moved⟩

end DecimalMachine
