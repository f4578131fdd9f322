import DecimalMachine.Proofs.Invariant

/-!
The index register and the count of instructions.

A completed instruction keeps the index register, moves it by one, or puts a word into it, and it is
counted. The register is therefore never further away from the words than the count, and `INC` and
`DEC` cannot wrap before the count has come near the largest 32-bit integer.
-/

namespace DecimalMachine

theorem Word.toInt_toIndex (w : Word) : w.toIndex.toInt = w.value := by
  have lower := w.lower
  have upper := w.upper
  exact Int32.toInt_ofInt_of_le (by omega) (by omega)

namespace Registers

theorem increment_natAbs_le (r : Registers) :
    r.increment.index.toInt.natAbs ≤ r.index.toInt.natAbs + 1 := by
  have lower := r.index.le_toInt
  have upper := r.index.toInt_lt
  -- Beyond the largest integer comes the smallest, which is one further from zero.
  simp only [increment, Int32.toInt_add, Int32.reduceToInt, Int.bmod_def]
  omega

theorem decrement_natAbs_le (r : Registers) :
    r.decrement.index.toInt.natAbs ≤ r.index.toInt.natAbs + 1 := by
  have lower := r.index.le_toInt
  have upper := r.index.toInt_lt
  simp only [decrement, Int32.toInt_sub, Int32.reduceToInt, Int.bmod_def]
  omega

theorem increment_exact {r : Registers} (inside : r.index.toInt.natAbs < 2147483647) :
    r.increment.index.toInt = r.index.toInt + 1 := by
  simp only [increment, Int32.toInt_add, Int32.reduceToInt, Int.bmod_def]
  omega

theorem decrement_exact {r : Registers} (inside : r.index.toInt.natAbs < 2147483647) :
    r.decrement.index.toInt = r.index.toInt - 1 := by
  simp only [decrement, Int32.toInt_sub, Int32.reduceToInt, Int.bmod_def]
  omega

end Registers

def Change.onIndex : Change → Int32 → Int32
  | .setIndex value, _ => value
  | .exchange _ index, _ => index
  | _, index => index

def Opcode.indexSetters : List Opcode := [.loadIndex, .increment, .decrement, .swap]

namespace Machine

variable {m : Machine}

theorem commit_index (m : Machine) (change : Change) :
    (m.commit change).registers.index = change.onIndex m.registers.index := by
  cases change <;> rfl

/-- Where the latched instruction moves the index register. -/
inductive IndexMove (m : Machine) : Int32 → Prop where
  | kept (op : m.current.opcode ∉ Opcode.indexSetters) : IndexMove m m.registers.index
  | up (op : m.current.opcode = .increment) : IndexMove m m.registers.increment.index
  | down (op : m.current.opcode = .decrement) : IndexMove m m.registers.decrement.index
  | loaded (w : Word) (op : m.current.opcode = .loadIndex) : IndexMove m w.toIndex
  | exchanged (op : m.current.opcode = .swap) : IndexMove m m.registers.accumulator.toIndex

theorem IndexMove.of_planned {change : Change}
    (planned : m.plan m.current = .ok (.change change))
    (action : m.ActionOf m.current (.change change)) :
    m.IndexMove (change.onIndex m.registers.index) := by
  cases op : m.current.opcode with
  | increment =>
    simp only [plan, op, Except.ok.injEq, Action.change.injEq] at planned
    exact planned ▸ .up op
  | decrement =>
    simp only [plan, op, Except.ok.injEq, Action.change.injEq] at planned
    exact planned ▸ .down op
  | loadIndex =>
    simp only [plan, op] at planned
    cases found : m.operandWord m.current with
    | error fault =>
      rw [found] at planned
      cases planned
    | ok w =>
      rw [found] at planned
      cases planned
      exact .loaded w op
  | swap =>
    simp only [plan, op, exchange] at planned
    cases made : m.result m.registers.index.toInt with
    | error fault =>
      rw [made] at planned
      cases planned
    | ok w =>
      rw [made] at planned
      cases planned
      exact .exchanged op
  | _ =>
    have other : m.current.opcode ∉ Opcode.indexSetters := by simp [op, Opcode.indexSetters]
    cases action with
    | loadIndex _ op' | increment op' | decrement op' | exchange _ op' => cases op.symm.trans op'
    | _ => exact .kept other

theorem Settles.indexMove {change : Change} (settles : m.Settles (.ok change)) :
    m.IndexMove (change.onIndex m.registers.index) := by
  cases settles.makes with
  | planned planned action => exact .of_planned planned action
  | printed op => exact .kept (by rw [op]; decide)
  | answered w op => exact .kept (by rw [op]; decide)

theorem IndexMove.natAbs_le {index : Int32} (move : m.IndexMove index) :
    index.toInt.natAbs ≤ 999999 ∨ index.toInt.natAbs ≤ m.registers.index.toInt.natAbs + 1 := by
  have ofWord (w : Word) : w.toIndex.toInt.natAbs ≤ 999999 := by
    have lower := w.lower
    have upper := w.upper
    rw [w.toInt_toIndex]
    omega
  cases move with
  | kept => exact .inr (Nat.le_succ _)
  | up => exact .inr m.registers.increment_natAbs_le
  | down => exact .inr m.registers.decrement_natAbs_le
  | loaded w => exact .inl (ofWord w)
  | exchanged => exact .inl (ofWord _)

/-- The index register is no further from the words than the count. -/
def IndexCounted (m : Machine) : Prop := m.registers.index.toInt.natAbs ≤ 999999 + m.cycles.toNat

end Machine

variable {ι ω : Type} [Source ι] [Sink ω] {before after : Session ι ω} {i : Instruction}

theorem step_indexMove (done : step before = .ok i after) :
    ∃ l, before.machine.latch = .ok l ∧ i = l.current ∧
      l.IndexMove after.machine.registers.index := by
  obtain ⟨m, c⟩ := before
  have ended := step_cases m c
  rw [done] at ended
  cases ended with
  | @completed w change c' running fetched performed =>
    refine ⟨_, Machine.latch_of_read running fetched, rfl, ?_⟩
    rw [Machine.commit_index]
    exact (Machine.perform_settles performed).indexMove

namespace Machine.IndexCounted

theorem fresh : Machine.fresh.IndexCounted := Nat.zero_le _

theorem of_same {m m' : Machine} (counted : m.IndexCounted)
    (index : m'.registers.index = m.registers.index) (cycles : m'.cycles = m.cycles) :
    m'.IndexCounted := by
  unfold IndexCounted at *
  rw [index, cycles]
  exact counted

theorem completed (counted : before.machine.IndexCounted)
    (room : before.machine.cycles.toNat < fullCount) (done : step before = .ok i after) :
    after.machine.IndexCounted := by
  obtain ⟨l, latched, -, move⟩ := step_indexMove done
  obtain ⟨-, w, -, rfl⟩ := latch_eq_ok latched
  have bound := move.natAbs_le
  have count := step_cycles_toNat done room
  unfold IndexCounted at *
  change _ ∨ _ ≤ before.machine.registers.index.toInt.natAbs + 1 at bound
  omega

theorem kept : KeptBySteps IndexCounted where
  completed := completed
  failed counted failed :=
    counted.of_same (step_failed failed).same.index (step_failed failed).same.cycles

theorem of_reachable {m : Machine} (reachable : Reachable m) : m.IndexCounted := by
  apply reachable.induct fresh _ _ kept
  · intro m m' program counted placed
    obtain ⟨memory, -, rfl⟩ := loadProgram_eq_placed_iff.mp placed
    exact counted.of_same rfl rfl
  · intro m memory address w counted _
    exact counted.of_same rfl rfl

end Machine.IndexCounted

namespace Machine.IndexMove

variable {m : Machine} {index : Int32}

theorem stepped (move : m.IndexMove index) (inside : m.registers.index.toInt.natAbs < 2147483647) :
    (m.current.opcode = .increment → index.toInt = m.registers.index.toInt + 1) ∧
    (m.current.opcode = .decrement → index.toInt = m.registers.index.toInt - 1) := by
  cases move with
  | kept op => simp_all [Opcode.indexSetters]
  | up op => simp [op, Registers.increment_exact inside]
  | down op => simp [op, Registers.decrement_exact inside]
  | loaded w op | exchanged op => simp [op]

theorem word (move : m.IndexMove index)
    (op : m.current.opcode = .swap ∨ m.current.opcode = .loadIndex) :
    ∃ w : Word, index.toInt = w.value := by
  cases move with
  | kept op' => simp_all [Opcode.indexSetters]
  | up op' | down op' => simp [op'] at op
  | loaded w => exact ⟨w, w.toInt_toIndex⟩
  | exchanged => exact ⟨_, Word.toInt_toIndex _⟩

end Machine.IndexMove

/-- The index register of a machine that can come about is bounded by the count; `INC` and `DEC` are
exact until the count comes near the largest 32-bit integer, and `SWAP` and `LOADX` leave a word. -/
theorem index_bounded_by_count (reachable : Reachable before.machine) :
    before.machine.registers.index.toInt.natAbs ≤ 999999 + before.machine.cycles.toNat ∧
    ∀ i after, step before = .ok i after →
      (before.machine.cycles.toNat < 2146483648 →
        (i.opcode = .increment → after.machine.registers.index.toInt =
          before.machine.registers.index.toInt + 1) ∧
        (i.opcode = .decrement → after.machine.registers.index.toInt =
          before.machine.registers.index.toInt - 1)) ∧
      (i.opcode = .swap ∨ i.opcode = .loadIndex →
        ∃ w : Word, after.machine.registers.index.toInt = w.value) := by
  have counted : before.machine.registers.index.toInt.natAbs ≤
      999999 + before.machine.cycles.toNat := Machine.IndexCounted.of_reachable reachable
  constructor
  · exact counted
  · intro i after done
    obtain ⟨l, latched, rfl, move⟩ := step_indexMove done
    obtain ⟨-, w, -, rfl⟩ := Machine.latch_eq_ok latched
    constructor
    · intro early
      have inside : before.machine.registers.index.toInt.natAbs < 2147483647 := by omega
      exact move.stepped inside
    · exact move.word

def lowering : Session Script Transcript :=
  ⟨{ Machine.fresh with memory := Memory.blank.set 0 (.ofInt 390000) }, ⟨⟨[]⟩, {}, {}⟩⟩

theorem index_bounded_by_count_lowering :
    Reachable lowering.machine ∧ ∃ after, step lowering = .ok ⟨.decrement, 0⟩ after ∧
      after.machine.registers.index.toInt = -1 := by
  have inside : Memory.blank.contains 0 = true := Memory.contains_blank (by decide)
  have reachable : Reachable lowering.machine := .poke 0 _ .fresh (if_pos inside)
  have fetched : lowering.machine.memory.read lowering.machine.location = .ok (.ofInt 390000) :=
    Memory.read_set_self inside _
  obtain ⟨after, done⟩ : ∃ after, step lowering = .ok ⟨.decrement, 0⟩ after := by
    simp only [step, Machine.latch_of_read rfl fetched]
    exact ⟨_, rfl⟩
  have moved := ((index_bounded_by_count reachable).2 _ _ done).1 (by decide)
  exact ⟨reachable, after, done, moved.2 rfl⟩

end DecimalMachine
