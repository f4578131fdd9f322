import DecimalMachine.Proofs.Cells
import DecimalMachine.Proofs.Packing
import DecimalMachine.Proofs.Placement
import DecimalMachine.Proofs.Reachable

/-!
What holds of every machine that can come about.

The counter stays on the first page, and the run state of a stopped machine tells the truth about
the instruction register and the counter. Only `commit` and a raised fault need an argument:
whatever else changes a machine leaves the registers and the run state alone.
-/

namespace DecimalMachine

namespace Machine

/-- A stopped machine stopped for the reason that its run state gives. -/
structure Sound (m : Machine) : Prop where
  size : m.memory.cells.size = Memory.capacity
  counter : m.registers.counter.toNat < Memory.pageSize
  halted : ∀ first last, m.state = .halted first last →
    m.current.opcode = .halt ∧ m.current.haltPages = (first, last)
  faulted : ∀ fault, m.state = .faulted fault → m.FaultOf m.current fault

namespace Sound

theorem start {m : Machine} (running : m.state = .running)
    (size : m.memory.cells.size = Memory.capacity)
    (counter : m.registers.counter.toNat < Memory.pageSize) : m.Sound := by
  refine ⟨size, counter, ?_, ?_⟩
  · intro first last halted
    cases halted.symm.trans running
  · intro fault faulted
    cases faulted.symm.trans running

theorem fresh : Machine.fresh.Sound := by
  apply start
  · rfl
  · exact Array.size_replicate
  · decide

theorem withMemory {m : Machine} (sound : m.Sound) {memory : Memory}
    (size : memory.cells.size = m.memory.cells.size) : { m with memory }.Sound :=
  ⟨size.trans sound.size, sound.counter, sound.halted,
    fun fault faulted =>
      ⟨(sound.faulted fault faulted).location, (sound.faulted fault faulted).code⟩⟩

theorem withTrace {m : Machine} (sound : m.Sound) (trace : Bool) : { m with trace }.Sound :=
  ⟨sound.size, sound.counter, sound.halted,
    fun fault faulted =>
      ⟨(sound.faulted fault faulted).location, (sound.faulted fault faulted).code⟩⟩

theorem poked {m : Machine} (sound : m.Sound) {memory : Memory} {address : UInt64} {w : Word}
    (written : m.memory.write address w = .ok memory) : { m with memory }.Sound := by
  obtain ⟨-, rfl⟩ := Memory.write_eq_ok_iff.mp written
  exact sound.withMemory (Memory.size_set _ _ _)

theorem loaded {m m' : Machine} (sound : m.Sound) {program : List Word}
    (placed : m.loadProgram program = .placed m') : m'.Sound := by
  obtain ⟨memory, laid, rfl⟩ := loadProgram_eq_placed_iff.mp placed
  exact sound.withMemory (Memory.place_eq_placed_iff.mp laid).2.2.size

theorem load_not_aborted {m : Machine} (sound : m.Sound) (program : List Word) :
    m.loadProgram program ≠ .aborted := by
  intro aborted
  obtain ⟨room, short⟩ := Memory.place_eq_aborted_iff.mp (loadProgram_eq_aborted_iff.mp aborted)
  have start : (0 : UInt64).toNat = 0 := rfl
  rw [start] at room short
  rw [sound.size] at short
  omega

theorem of_running {m : Machine} (sound : m.Sound) (running : m.state = .running) (w : Word) :
    (m.withInstruction w).Sound :=
  start running sound.size sound.counter

theorem commit {m : Machine} {change : Change} (sound : m.Sound) (running : m.state = .running)
    (settles : m.Settles (.ok change)) : (m.commit change).Sound := by
  have same : (m.commit change).current = m.current :=
    congrArg Instruction.ofWord (m.commit_instruction change)
  refine ⟨(m.commit_size change).trans sound.size, commit_counter_lt sound.counter change, ?_, ?_⟩
  · intro first last halted
    rw [same]
    cases change with
    | halt first' last' =>
      cases halted
      exact settles.of_halt
    | _ => cases halted.symm.trans running
  · intro fault faulted
    cases change with
    | halt first last => cases faulted
    | _ => cases faulted.symm.trans running

theorem raise {m : Machine} {fault : Fault} (sound : m.Sound)
    (settles : m.Settles (.error fault)) : { m with state := .faulted fault }.Sound := by
  refine ⟨sound.size, sound.counter, nofun, ?_⟩
  rintro fault' ⟨⟩
  exact ⟨settles.faultOf.location, settles.faultOf.code⟩

theorem completed {ι ω : Type} [Source ι] [Sink ω] {before after : Session ι ω} {i : Instruction}
    (sound : before.machine.Sound) (done : step before = .ok i after) : after.machine.Sound := by
  obtain ⟨m, c⟩ := before
  have ended := step_cases m c
  rw [done] at ended
  cases ended with
  | completed running fetched performed =>
    exact (sound.of_running running _).commit running (perform_settles performed)

theorem kept : KeptBySteps Sound where
  completed sound _ done := sound.completed done
  failed := by
    intro ι ω _ _ before after e sound failed
    obtain ⟨m, c⟩ := before
    have ended := step_cases m c
    rw [failed] at ended
    cases ended with
    | stopped | unreadable => exact sound
    | broken running fetched performed => exact sound.of_running running _
    | faulted running fetched performed =>
      exact (sound.of_running running _).raise (perform_settles performed)

theorem of_reachable {m : Machine} (reachable : Reachable m) : m.Sound :=
  reachable.induct fresh (fun _ sound placed => sound.loaded placed)
    (fun _ _ sound written => sound.poked written) kept

end Sound

theorem Sound.latch_confined {m latched : Machine} (sound : m.Sound)
    (fetched : m.latch = .ok latched) :
    ∃ address < Memory.pageSize, m.memory.cells[address]? = some latched.registers.instruction := by
  obtain ⟨-, w, found, rfl⟩ := latch_eq_ok fetched
  exact ⟨m.registers.counter.toNat, sound.counter, Memory.read_eq_ok_iff.mp found⟩

end Machine

/-- What every machine has in common that comes from a fresh one. A load is never aborted, so that
the two kinds of load that `Reachable` knows are all there are. -/
theorem reachable_invariant {m : Machine} (reachable : Reachable m) :
    m.memory.cells.size = 10000 ∧
    (∀ w ∈ m.registers.accumulator :: m.registers.instruction :: m.memory.cells.toList,
      -999999 ≤ w.value ∧ w.value ≤ 999999) ∧
    m.registers.counter.toNat < 100 ∧
    (∀ latched, m.latch = .ok latched →
      ∃ address < 100, m.memory.cells[address]? = some latched.registers.instruction) ∧
    (∀ first last, m.state = .halted first last →
      first.toNat ≤ 99 ∧ last.toNat ≤ 99 ∧
      m.current.opcode = .halt ∧ m.current.haltPages = (first, last)) ∧
    (∀ fault, m.state = .faulted fault → fault.location = m.registers.counter ∧
      ∀ code location, fault = .unknownOpcode code location →
        code = m.registers.instruction.opcode ∧ ∀ op ∈ Opcode.all, op.code ≠ code) ∧
    ∀ program, m.loadProgram program ≠ .aborted := by
  have sound := Machine.Sound.of_reachable reachable
  refine ⟨sound.size, fun w _ => ⟨w.lower, w.upper⟩, sound.counter,
    fun latched fetched => sound.latch_confined fetched, ?_, ?_, sound.load_not_aborted⟩
  · intro first last halted
    obtain ⟨op, pages⟩ := sound.halted first last halted
    have bounds : m.current.haltPages.1.toNat ≤ 99 ∧ m.current.haltPages.2.toNat ≤ 99 :=
      m.registers.instruction.haltPages_le
    rw [pages] at bounds
    exact ⟨bounds.1, bounds.2, op, pages⟩
  · intro fault faulted
    have raised := sound.faulted fault faulted
    refine ⟨raised.location, ?_⟩
    intro code location same
    obtain ⟨rfl, unnamed⟩ := Opcode.ofCode_eq_unknown (raised.code code location same)
    exact ⟨rfl, unnamed⟩

-- A fresh machine whose first cell has been made a `HALT`, without input.
def poked : Session Script Transcript :=
  ⟨{ Machine.fresh with memory := Memory.blank.set 0 ⟨450123, by decide, by decide⟩ },
    ⟨⟨[]⟩, {}, {}⟩⟩

theorem reachable_invariant_poked :
    ∃ halted : Machine, Reachable halted ∧ halted.state = .halted 1 23 ∧
      halted.registers.counter.toNat < 100 ∧ halted.current.haltPages = (1, 23) := by
  have inside : Memory.blank.contains 0 = true := Memory.contains_blank (by decide)
  have written : Memory.blank.write 0 ⟨450123, by decide, by decide⟩ = .ok poked.machine.memory :=
    if_pos inside
  have fetched : poked.machine.memory.read poked.machine.location =
    .ok ⟨450123, by decide, by decide⟩ := Memory.read_set_self inside _
  obtain ⟨after, done, halted⟩ : ∃ after, step poked = .ok ⟨.halt, 123⟩ after ∧
      after.machine.state = .halted 1 23 := by
    simp only [step, Machine.latch_of_read rfl fetched]
    exact ⟨_, rfl, rfl⟩
  have reachable : Reachable after.machine :=
    .completed (.poke 0 _ .fresh written : Reachable poked.machine) (by decide) done
  have holds := reachable_invariant reachable
  exact ⟨_, reachable, halted, holds.2.2.1, (holds.2.2.2.2.1 1 23 halted).2.2.2⟩

end DecimalMachine
