import DecimalMachine.Proofs.Faults
import DecimalMachine.Proofs.Replacement

/-!
An instruction that addresses at the index register is its direct counterpart at that address.

The two come to the same, because they address the same cell: `plan_of_pair` goes through the six
pairs once. Neither uses the console, so that nothing is asked of its input and its output.
-/

namespace DecimalMachine

/-- The operations that work at the index register, each with its direct counterpart. -/
def Opcode.pairs : List (Opcode × Opcode) :=
  [(.loadIndexed, .load), (.storeIndexed, .store), (.addIndexed, .add),
   (.subtractIndexed, .subtract), (.divideIndexed, .divide), (.multiplyIndexed, .multiply)]

namespace Opcode

theorem pairs_fst : pairs.map Prod.fst = indexedForms := rfl

theorem indexed_of_pair {x d : Opcode} (pair : (x, d) ∈ pairs) : x ∈ indexedForms := by
  rw [← pairs_fst]
  exact List.mem_map_of_mem pair

theorem direct_of_pair {x d : Opcode} (pair : (x, d) ∈ pairs) : d.isIndexed = false := by
  have all : ∀ p ∈ pairs, p.2.isIndexed = false := by decide
  exact all _ pair

theorem quiet_of_pair {x d : Opcode} (pair : (x, d) ∈ pairs) : x ≠ .read ∧ x ≠ .write := by
  have all : ∀ p ∈ pairs, p.1 ≠ .read ∧ p.1 ≠ .write := by decide
  exact all _ pair

end Opcode

namespace Machine

variable {m n : Machine} {i j : Instruction} {S : Set Nat}

/-! ### Plans -/

theorem plan_of_pair (alike : AddressAlike S m i n j) (pair : (i.opcode, j.opcode) ∈ Opcode.pairs) :
    m.plan i = n.plan j := by
  have storing := alike.same.storing alike.memory
  simp only [Opcode.pairs, List.mem_cons, Prod.mk.injEq, List.not_mem_nil, or_false] at pair
  rcases pair with ⟨op, op'⟩ | ⟨op, op'⟩ | ⟨op, op'⟩ | ⟨op, op'⟩ | ⟨op, op'⟩ | ⟨op, op'⟩
  case inr.inl =>
    simp only [plan, op, op', alike.address, alike.same.accumulator, storing]
  all_goals simp only [plan, op, op', alike.operandWord, alike.arithmetic, alike.division]

theorem plan_computed (quiet : i.opcode ≠ .read ∧ i.opcode ≠ .write) :
    ∃ computed, m.plan i = Except.map Action.change computed := by
  cases planned : m.plan i with
  | error fault => exact ⟨.error fault, rfl⟩
  | ok action =>
    cases (m.plan_yields i).of_ok planned with
    | ask op => exact absurd op quiet.1
    | print w op => exact absurd op quiet.2
    | _ => exact ⟨.ok _, rfl⟩

theorem Settles.read_onMemory {change : Change} (settles : m.Settles (.ok change)) {cell : UInt64}
    (apart : ∀ address, m.effectiveAddress m.current = .ok address → cell ≠ address) :
    (change.onMemory m.memory).read cell = m.memory.read cell := by
  cases settles.overwriting with
  | stored op given same =>
    rw [same]
    exact Memory.read_set_of_ne (apart _ given) _
  | spared op same => rw [same]

theorem ended_spares {ι ω : Type} (console : Console ι ω) {computed : Except Fault Change}
    {cell : UInt64} (planned : m.plan m.current = computed.map .change)
    (apart : ∀ address, m.effectiveAddress m.current = .ok address → cell ≠ address) :
    (endState (m.ended console (.ok computed))).machine.memory.read cell = m.memory.read cell ∧
      (endState (m.ended console (.ok computed))).machine.registers.instruction =
        m.registers.instruction := by
  cases computed with
  | error fault => exact ⟨rfl, rfl⟩
  | ok change =>
    have settles : m.Settles (.ok change) := .changed planned
    refine ⟨?_, m.commit_instruction change⟩
    rw [ended, endState, commit_memory, settles.read_onMemory apart]

end Machine

theorem Memory.agreeOff_set (M : Memory) (address : UInt64) (w : Word) :
    Memory.AgreeOff {address.toNat} M (M.set address w) := by
  refine ⟨(M.size_set address w).symm, ?_⟩
  intro k outside
  exact (Array.getElem?_setIfInBounds_ne (fun here => outside here.symm)).symm

/-! ### Steps -/

variable {ι ω : Type}

def Session.holding (s : Session ι ω) (w : Word) : Session ι ω :=
  ⟨{ s.machine with memory := s.machine.memory.set s.machine.location w }, s.console⟩

/-- What two steps leave that began with the words `v` and `w` at this location and were the same
otherwise. -/
structure LeftAlike (location : UInt64) (v w : Word) (console : Console ι ω)
    (after after' : Session ι ω) : Prop where
  same : after.machine.SameBesideMemory after'.machine
  memory : after.machine.memory.AgreeOff {location.toNat} after'.machine.memory
  here : after.machine.memory.read location = .ok v ∧ after.machine.registers.instruction = v
  there : after'.machine.memory.read location = .ok w ∧ after'.machine.registers.instruction = w
  input : after.console.input = console.input ∧ after'.console.input = console.input
  output : after.console.output = console.output ∧ after'.console.output = console.output

/-- The steps both complete their own instructions, or both raise the same fault. -/
inductive SameEnd (location : UInt64) (v w : Word) (console : Console ι ω) :
    EStateM.Result StepError (Session ι ω) Instruction →
    EStateM.Result StepError (Session ι ω) Instruction → Prop where
  | completed {after after' : Session ι ω} (left : LeftAlike location v w console after after') :
      SameEnd location v w console (.ok (.ofWord v) after) (.ok (.ofWord w) after')
  | faulted {fault : Fault} {after after' : Session ι ω}
      (left : LeftAlike location v w console after after') :
      SameEnd location v w console (.error (.fault fault) after) (.error (.fault fault) after')

variable [Source ι] [Sink ω]

theorem step_silent {s : Session ι ω} {l : Machine} (latched : s.machine.latch = .ok l)
    (silent : s.machine.trace = false) (computed : Except Fault Change)
    (planned : l.plan l.current = computed.map .change) :
    ∃ journal, step s = l.ended ⟨s.console.input, s.console.output, journal⟩ (.ok computed) := by
  obtain ⟨m, c⟩ := s
  obtain ⟨-, w, -, rfl⟩ := Machine.latch_eq_ok latched
  have quiet : (m.withInstruction w).trace = false := silent
  have announced : (m.withInstruction w).announce c =
      .ok () ⟨c.input, c.output, c.journal.note (.fetched m.location w)⟩ := by
    simp only [Machine.announce, quiet]
    rfl
  obtain ⟨journal, performed⟩ := Machine.perform_of_computed announced computed planned
  refine ⟨journal, ?_⟩
  simp only [step, latched, performed]
  cases computed <;> rfl

theorem Machine.SameBesideMemory.addressAlike {m n : Machine} {location : UInt64}
    (same : m.SameBesideMemory n) (pair : (m.current.opcode, n.current.opcode) ∈ Opcode.pairs)
    (memory : m.memory.AgreeOff {location.toNat} n.memory) (inside : m.IndexInside)
    (apart : (location.toNat : Int) ≠ m.registers.index.toInt)
    (operand : (n.current.operand.toNat : Int) = m.registers.index.toInt) :
    Machine.AddressAlike {location.toNat} m m.current n n.current := by
  have given := Machine.effectiveAddress_of_inside (Opcode.indexed_of_pair pair) inside
  have addressed := (Machine.addresses_iff given _).mpr rfl
  rw [Machine.Addresses, if_pos (Opcode.isIndexed_iff.mpr (Opcode.indexed_of_pair pair))]
    at addressed
  have given' := Machine.effectiveAddress_direct (Opcode.direct_of_pair pair)
  have there : m.registers.indexAddress.toUInt64 = n.current.operand.toUInt64 := by
    apply UInt64.toNat_inj.mp
    rw [UInt16.toNat_toUInt64]
    omega
  refine ⟨same, memory, by rw [given, given', there], ?_⟩
  rw [given]
  rintro address ⟨⟩ here
  rw [Set.mem_singleton_iff] at here
  omega

theorem sameEnd_of_pair {s : Session ι ω} {v w : Word}
    (pair : ((Instruction.ofWord v).opcode, (Instruction.ofWord w).opcode) ∈ Opcode.pairs)
    (running : s.machine.state = .running) (silent : s.machine.trace = false)
    (here : s.machine.memory.read s.machine.location = .ok v) (inside : s.machine.IndexInside)
    (apart : (s.machine.location.toNat : Int) ≠ s.machine.registers.index.toInt)
    (operand : ((Instruction.ofWord w).operand.toNat : Int) = s.machine.registers.index.toInt) :
    SameEnd s.machine.location v w s.console (step s) (step (s.holding w)) := by
  have there : (s.holding w).machine.memory.read s.machine.location = .ok w :=
    Memory.read_set_self (Memory.contains_of_read here) w
  have latched := Machine.latch_of_read running here
  have latched' : (s.holding w).machine.latch = _ := Machine.latch_of_read running there
  have same : (s.machine.withInstruction v).SameBesideMemory
      ((s.holding w).machine.withInstruction w) := ⟨rfl, rfl, rfl, rfl, rfl, rfl⟩
  have memory := s.machine.memory.agreeOff_set s.machine.location w
  have alike := same.addressAlike pair memory inside apart operand
  have plans := Machine.plan_of_pair alike pair
  obtain ⟨computed, planned⟩ := Machine.plan_computed (m := s.machine.withInstruction v)
    (Opcode.quiet_of_pair pair)
  obtain ⟨journal, stepped⟩ := step_silent latched silent computed planned
  obtain ⟨journal', stepped'⟩ := step_silent latched' silent computed (plans.symm.trans planned)
  -- Neither form addresses the cell at the counter, so that each keeps its own word there.
  have spared (address : UInt64)
      (given : (s.machine.withInstruction v).effectiveAddress (.ofWord v) = .ok address) :
      s.machine.location ≠ address := fun here => alike.outside address given (congrArg _ here.symm)
  have kept := Machine.ended_spares ⟨s.console.input, s.console.output, journal⟩ planned spared
  have kept' := Machine.ended_spares ⟨s.console.input, s.console.output, journal'⟩
    (plans.symm.trans planned) fun address given => spared address (alike.address.trans given)
  rw [stepped, stepped']
  cases computed with
  | error fault =>
    exact .faulted ⟨same.raise fault, memory, ⟨here, rfl⟩, ⟨there, rfl⟩, ⟨rfl, rfl⟩, ⟨rfl, rfl⟩⟩
  | ok change =>
    refine .completed ⟨same.commit change, ?_, ⟨kept.1.trans here, kept.2⟩,
      ⟨kept'.1.trans there, kept'.2⟩, ⟨rfl, rfl⟩, ⟨rfl, rfl⟩⟩
    rw [Machine.commit_memory, Machine.commit_memory]
    exact memory.onMemory change

theorem step_of_outside {s : Session ι ω} {v : Word}
    (op : (Instruction.ofWord v).opcode ∈ Opcode.indexedForms)
    (running : s.machine.state = .running) (silent : s.machine.trace = false)
    (here : s.machine.memory.read s.machine.location = .ok v) (outside : ¬ s.machine.IndexInside) :
    ∃ address journal, address.toInt = s.machine.registers.index.toInt ∧
      step s = .error (.fault (.outOfRange address s.machine.location))
        ⟨{ s.machine.withInstruction v with
            state := .faulted (.outOfRange address s.machine.location) },
          ⟨s.console.input, s.console.output, journal⟩⟩ := by
  have planned : (s.machine.withInstruction v).plan (.ofWord v) =
      .error (.outOfRange s.machine.registers.indexAddress s.machine.location) :=
    Machine.plan_of_outside op outside
  obtain ⟨journal, stepped⟩ :=
    step_silent (Machine.latch_of_read running here) silent (.error _) planned
  exact ⟨_, journal, s.machine.registers.indexAddress_toInt, stepped⟩

/-- An indexed instruction does what its direct counterpart at the index does, and at an index
outside of the memory it faults with that index and changes nothing else. -/
theorem indexed_like_direct {s : Session ι ω} {v : Word}
    (op : (Instruction.ofWord v).opcode ∈ Opcode.indexedForms)
    (running : s.machine.state = .running) (silent : s.machine.trace = false)
    (here : s.machine.memory.read s.machine.location = .ok v) :
    (s.machine.IndexInside → (s.machine.location.toNat : Int) ≠ s.machine.registers.index.toInt →
      ∀ w, ((Instruction.ofWord v).opcode, (Instruction.ofWord w).opcode) ∈ Opcode.pairs →
        ((Instruction.ofWord w).operand.toNat : Int) = s.machine.registers.index.toInt →
          SameEnd s.machine.location v w s.console (step s) (step (s.holding w))) ∧
    (¬ s.machine.IndexInside → ∃ address journal, address.toInt = s.machine.registers.index.toInt ∧
      step s = .error (.fault (.outOfRange address s.machine.location))
        ⟨{ s.machine.withInstruction v with
            state := .faulted (.outOfRange address s.machine.location) },
          ⟨s.console.input, s.console.output, journal⟩⟩) :=
  ⟨fun inside apart _ pair operand => sameEnd_of_pair pair running silent here inside apart operand,
    step_of_outside op running silent here⟩

-- A session that is to multiply 1000 by the cell at the index, which is 2, without input.
def multiplying : Session Script Transcript :=
  let start := programmed [370009, 0, -1000] []
  { start with machine := { start.machine with registers := ⟨.ofInt 1000, 2, 0, .zero⟩ } }

theorem indexed_like_direct_multiplying :
    ∃ after after', step multiplying = .error (.fault (.accumulatorOverflow (-1000000) 0)) after ∧
      step (multiplying.holding (.ofInt (-360002))) =
        .error (.fault (.accumulatorOverflow (-1000000) 0)) after' ∧
      LeftAlike 0 (.ofInt 370009) (.ofInt (-360002)) multiplying.console after after' := by
  have alike :=
    (indexed_like_direct (s := multiplying) (v := .ofInt 370009) (by decide) rfl rfl rfl).1
    (by decide) (by decide) (.ofInt (-360002)) (by decide) (by decide)
  have faulted : step multiplying =
    .error (.fault (.accumulatorOverflow (-1000000) 0)) (endState (step multiplying)) := by rfl
  rw [faulted] at alike
  generalize step (multiplying.holding (.ofInt (-360002))) = r at alike ⊢
  cases alike with
  | faulted left => exact ⟨_, _, faulted, rfl, left⟩

end DecimalMachine
