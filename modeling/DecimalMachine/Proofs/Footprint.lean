import Mathlib.Data.Set.Insert
import DecimalMachine.Proofs.Cells
import DecimalMachine.Proofs.Plan
import DecimalMachine.Proofs.Reliable

/-!
The footprint of an instruction: the parts of its word that it uses, and the cell that it addresses.

Two machines may hold different words in some of their cells. An instruction that reads none of
these cells, and whose own two words are used alike, is planned and answered alike by both machines,
and what it changes keeps the cells apart that differed, except for the one that it overwrites.
-/

namespace DecimalMachine

namespace Opcode

def readsData : Opcode → Bool
  | .write | .load | .loadIndex | .loadIndexed | .add | .addIndexed | .subtract | .subtractIndexed
  | .divide | .divideIndexed | .multiply | .multiplyIndexed => true
  | _ => false

def overwrites : Opcode → Bool
  | .read | .store | .storeIndexed => true
  | _ => false

def usesOperand : Opcode → Bool
  | .loadImmediate | .increment | .decrement | .swap | .unknown _ => false
  | op => !op.isIndexed

theorem overwrites_iff {op : Opcode} :
    op.overwrites = true ↔ op = .read ∨ op = .store ∨ op = .storeIndexed := by
  cases op <;> simp [overwrites]

theorem usesOperand_of_direct {op : Opcode} (addresses : op.readsData = true ∨ op.overwrites = true)
    (direct : op.isIndexed = false) : op.usesOperand = true := by
  cases op <;> simp_all [readsData, overwrites, usesOperand, isIndexed]

end Opcode

/-- Two words have the same operation, and are the same in what it uses of them. -/
structure Word.UsedAlike (v w : Word) : Prop where
  opcode : (Instruction.ofWord v).opcode = (Instruction.ofWord w).opcode
  operand : (Instruction.ofWord v).opcode.usesOperand = true → v.operand = w.operand
  immediate : (Instruction.ofWord v).opcode = .loadImmediate → v.immediate = w.immediate

theorem Word.UsedAlike.refl (w : Word) : w.UsedAlike w := ⟨rfl, fun _ => rfl, fun _ => rfl⟩

/-! ### Memories that differ in some cells -/

/-- The two memories hold the same words outside of `S`. -/
structure Memory.AgreeOff (S : Set Nat) (M N : Memory) : Prop where
  size : M.cells.size = N.cells.size
  cells : ∀ k, k ∉ S → M.cells[k]? = N.cells[k]?

namespace Memory.AgreeOff

variable {S : Set Nat} {M N : Memory}

theorem mono {T : Set Nat} (agree : AgreeOff S M N) (more : ∀ k, k ∈ S → k ∈ T) : AgreeOff T M N :=
  ⟨agree.size, fun k outside => agree.cells k fun inside => outside (more k inside)⟩

theorem contains (agree : AgreeOff S M N) (address : UInt64) :
    M.contains address = N.contains address := by
  simp only [Memory.contains, agree.size]

theorem read (agree : AgreeOff S M N) {address : UInt64} (outside : address.toNat ∉ S) :
    M.read address = N.read address := by
  simp only [Memory.read, agree.cells _ outside]

theorem set (agree : AgreeOff S M N) (address : UInt64) (w : Word) :
    AgreeOff (S \ {address.toNat}) (M.set address w) (N.set address w) := by
  constructor
  · rw [size_set, size_set]
    exact agree.size
  · intro k outside
    by_cases here : address.toNat = k
    · subst here
      simp [Memory.set, Array.getElem?_setIfInBounds, agree.size]
    · simp only [Memory.set, Array.getElem?_setIfInBounds_ne here]
      apply agree.cells
      intro inside
      exact outside ⟨inside, fun same => here same.symm⟩

end Memory.AgreeOff

def Change.onMemory : Change → Memory → Memory
  | .store address w, memory => memory.set address w
  | _, memory => memory

theorem Memory.AgreeOff.onMemory {S : Set Nat} {M N : Memory} (agree : AgreeOff S M N)
    (change : Change) : AgreeOff S (change.onMemory M) (change.onMemory N) := by
  cases change with
  | store address w => exact (agree.set address w).mono fun _ kept => kept.1
  | _ => exact agree

namespace Machine

theorem commit_memory (m : Machine) (change : Change) :
    (m.commit change).memory = change.onMemory m.memory := by
  cases change <;> rfl

/-! ### The cell that an instruction addresses -/

def next? (m : Machine) : Option Instruction :=
  match m.memory.read m.location with
  | .ok w => some (Instruction.ofWord w)
  | .error _ => none

theorem next?_of_latched {m l : Machine} (latched : m.latch = .ok l) :
    m.next? = some l.current := by
  obtain ⟨-, w, fetched, rfl⟩ := latch_eq_ok latched
  simp only [next?, fetched]
  rfl

def Addresses (m : Machine) (i : Instruction) (cell : Nat) : Prop :=
  if i.opcode.isIndexed then (cell : Int) = m.registers.index.toInt else cell = i.operand.toNat

def ReadsAt (m : Machine) (i : Instruction) (cell : Nat) : Prop :=
  i.opcode.readsData = true ∧ m.Addresses i cell

theorem addresses_iff {m : Machine} {i : Instruction} {address : UInt64}
    (given : m.effectiveAddress i = .ok address) (cell : Nat) :
    m.Addresses i cell ↔ cell = address.toNat := by
  unfold effectiveAddress at given
  unfold Addresses
  split at given
  · rename_i indexed
    rw [if_pos indexed]
    have signed := m.registers.indexAddress_toInt
    split at given
    · rename_i address' found
      cases given
      obtain ⟨-, same⟩ := Memory.index_eq_ok_iff.mp found
      rw [signed] at same
      omega
    · cases given
  · rename_i direct
    rw [if_neg direct]
    cases given
    rw [UInt16.toNat_toUInt64]

theorem plan_storing {m : Machine} {i : Instruction}
    (op : i.opcode = .store ∨ i.opcode = .storeIndexed) :
    m.plan i = (m.effectiveAddress i).bind fun address =>
      (m.storing address m.registers.accumulator).map .change := by
  unfold plan
  rcases op with op | op <;> rw [op]

theorem storing_eq_ok {m : Machine} {address : UInt64} {w : Word} {change : Change}
    (stored : m.storing address w = .ok change) : change = .store address w := by
  unfold storing at stored
  split at stored
  · cases stored
    rfl
  · cases stored

theorem planned_store {m : Machine} {i : Instruction} {change : Change}
    (op : i.opcode = .store ∨ i.opcode = .storeIndexed)
    (planned : m.plan i = .ok (.change change)) :
    ∃ address, m.effectiveAddress i = .ok address ∧
      change = .store address m.registers.accumulator := by
  rw [plan_storing op] at planned
  cases given : m.effectiveAddress i with
  | error fault =>
    rw [given] at planned
    cases planned
  | ok address =>
    rw [given] at planned
    change (m.storing address m.registers.accumulator).map Action.change = _ at planned
    cases stored : m.storing address m.registers.accumulator with
    | error fault =>
      rw [stored] at planned
      cases planned
    | ok change' =>
      rw [stored] at planned
      cases planned
      exact ⟨address, rfl, storing_eq_ok stored⟩

/-- What a completed instruction does to the memory: it overwrites the cell that it addresses, if
its operation overwrites one. -/
inductive Overwriting (m : Machine) (change : Change) : Prop where
  | stored {address : UInt64} {w : Word} (op : m.current.opcode.overwrites = true)
      (given : m.effectiveAddress m.current = .ok address) (same : change = .store address w)
  | spared (op : m.current.opcode.overwrites = false)
      (same : ∀ memory, change.onMemory memory = memory)

theorem Settles.overwriting {m : Machine} {change : Change} (settles : m.Settles (.ok change)) :
    m.Overwriting change := by
  cases settles.makes with
  | printed op => exact .spared (by rw [op]; rfl) fun _ => rfl
  | answered w op =>
    refine .stored (by rw [op]; rfl) ?_ rfl
    unfold effectiveAddress
    rw [op]
    rfl
  | planned planned action =>
    by_cases stores : m.current.opcode = .store ∨ m.current.opcode = .storeIndexed
    · obtain ⟨address, given, same⟩ := planned_store stores planned
      exact .stored (Opcode.overwrites_iff.mpr (.inr stores)) given same
    · have other : m.current.opcode.overwrites = false := by
        apply Bool.eq_false_iff.mpr
        intro overwrites
        rcases Opcode.overwrites_iff.mp overwrites with read | store
        · simp [plan, read] at planned
        · exact stores store
      refine .spared other ?_
      cases action with
      | store address op => exact absurd op stores
      | _ => exact fun _ => rfl

theorem reply_settles {ι : Type} [Source ι] {m : Machine} {input : ι}
    {settled : Except Fault Change}
    (came : (m.reply input).settled = .ok settled) : m.Settles settled := by
  cases planned : m.plan m.current with
  | error fault =>
    simp only [reply, planned, Except.ok.injEq] at came
    exact came ▸ .refused planned
  | ok action =>
    cases action with
    | change change =>
      simp only [reply, planned, Except.ok.injEq] at came
      exact came ▸ .changed planned
    | print w =>
      simp only [reply, planned, Except.ok.injEq] at came
      exact came ▸ .printed planned
    | ask address =>
      simp only [reply, planned] at came
      cases outcome : (Source.read input).1.outcome with
      | error e => simp [outcome, Except.map] at came
      | ok value =>
        simp only [outcome, Except.map, Except.ok.injEq] at came
        exact came ▸ .answered value planned

/-! ### Two machines -/

structure SameBesideMemory (m n : Machine) : Prop where
  accumulator : m.registers.accumulator = n.registers.accumulator
  index : m.registers.index = n.registers.index
  counter : m.registers.counter = n.registers.counter
  state : m.state = n.state
  cycles : m.cycles = n.cycles
  trace : m.trace = n.trace

namespace SameBesideMemory

variable {m n : Machine}

theorem withInstruction (same : m.SameBesideMemory n) (v w : Word) :
    (m.withInstruction v).SameBesideMemory (n.withInstruction w) := by
  obtain ⟨accumulator, index, counter, state, cycles, trace⟩ := same
  exact ⟨accumulator, index, counter, state, cycles, trace⟩

theorem raise (same : m.SameBesideMemory n) (fault : Fault) :
    { m with state := .faulted fault }.SameBesideMemory { n with state := .faulted fault } := by
  obtain ⟨accumulator, index, counter, -, cycles, trace⟩ := same
  exact ⟨accumulator, index, counter, rfl, cycles, trace⟩

theorem commit (same : m.SameBesideMemory n) (change : Change) :
    (m.commit change).SameBesideMemory (n.commit change) := by
  obtain ⟨⟨_, _, _, _⟩, _, _, _, _⟩ := m
  obtain ⟨⟨_, _, _, _⟩, _, _, _, _⟩ := n
  obtain ⟨rfl, rfl, rfl, rfl, rfl, rfl⟩ := same
  cases change <;> exact ⟨rfl, rfl, rfl, rfl, rfl, rfl⟩

theorem location (same : m.SameBesideMemory n) : m.location = n.location := same.counter

theorem result (same : m.SameBesideMemory n) (value : Int) : m.result value = n.result value := by
  unfold Machine.result
  rw [same.location]

theorem exchange (same : m.SameBesideMemory n) : m.exchange = n.exchange := by
  unfold Machine.exchange
  rw [same.result, same.index, same.accumulator]

theorem branchOnSign (same : m.SameBesideMemory n) (target : UInt64) :
    m.branchOnSign target = n.branchOnSign target := by
  unfold Machine.branchOnSign
  rw [same.accumulator, same.location]

theorem branchOnZero (same : m.SameBesideMemory n) (target : UInt64) :
    m.branchOnZero target = n.branchOnZero target := by
  unfold Machine.branchOnZero
  rw [same.accumulator]

theorem storing {S : Set Nat} (same : m.SameBesideMemory n) (agree : m.memory.AgreeOff S n.memory)
    (address : UInt64) (w : Word) : m.storing address w = n.storing address w := by
  unfold Machine.storing
  rw [agree.contains, same.location]

end SameBesideMemory

/-- Two instructions of machines that may differ in the cells of `S` address the same cell, and it
is none of these. -/
structure AddressAlike (S : Set Nat) (m : Machine) (i : Instruction)
    (n : Machine) (j : Instruction) : Prop where
  same : m.SameBesideMemory n
  memory : m.memory.AgreeOff S n.memory
  address : m.effectiveAddress i = n.effectiveAddress j
  outside : ∀ address, m.effectiveAddress i = .ok address → address.toNat ∉ S

namespace AddressAlike

variable {S : Set Nat} {m n : Machine} {i j : Instruction}

theorem operandWord (alike : AddressAlike S m i n j) : m.operandWord i = n.operandWord j := by
  unfold Machine.operandWord
  rw [← alike.address]
  cases given : m.effectiveAddress i with
  | error fault => rfl
  | ok address =>
    simp only [Except.bind, wordAt, alike.memory.read (alike.outside address given),
      alike.same.location]

theorem arithmetic (alike : AddressAlike S m i n j) (f : Int → Int → Int) :
    m.arithmetic i f = n.arithmetic j f := by
  unfold Machine.arithmetic
  rw [alike.operandWord, alike.same.accumulator]
  simp only [alike.same.result]

theorem division (alike : AddressAlike S m i n j) : m.division i = n.division j := by
  unfold Machine.division
  rw [alike.operandWord, alike.same.accumulator, alike.same.location]
  simp only [alike.same.result]

end AddressAlike

/-- Two latched machines agree in everything that their instruction uses: they may differ in the
cells of `S`, and the instruction reads none of these. -/
structure UsedAlike (S : Set Nat) (m n : Machine) : Prop where
  same : m.SameBesideMemory n
  memory : m.memory.AgreeOff S n.memory
  word : m.registers.instruction.UsedAlike n.registers.instruction
  data : ∀ cell ∈ S, ¬ m.ReadsAt m.current cell

namespace UsedAlike

variable {S : Set Nat} {m n : Machine}

theorem opcode (alike : UsedAlike S m n) : m.current.opcode = n.current.opcode := alike.word.opcode

theorem operand (alike : UsedAlike S m n) (uses : m.current.opcode.usesOperand = true) :
    m.current.operand = n.current.operand := alike.word.operand uses

theorem effectiveAddress (alike : UsedAlike S m n)
    (addresses : m.current.opcode.readsData = true ∨ m.current.opcode.overwrites = true) :
    m.effectiveAddress m.current = n.effectiveAddress n.current := by
  unfold Machine.effectiveAddress Registers.indexAddress
  rw [← alike.opcode, ← alike.same.index, ← alike.same.location]
  cases indexed : m.current.opcode.isIndexed with
  | true => rfl
  | false => rw [alike.operand (Opcode.usesOperand_of_direct addresses indexed)]

theorem addressAlike (alike : UsedAlike S m n) (reads : m.current.opcode.readsData = true) :
    AddressAlike S m m.current n n.current := by
  refine ⟨alike.same, alike.memory, alike.effectiveAddress (.inl reads), ?_⟩
  intro address given inside
  exact alike.data _ inside ⟨reads, (addresses_iff given _).mpr rfl⟩

theorem plan (alike : UsedAlike S m n) : m.plan m.current = n.plan n.current := by
  have opcode := alike.opcode
  have operand := alike.operand
  have effectiveAddress := alike.effectiveAddress
  have addressAlike := alike.addressAlike
  have storing := alike.same.storing alike.memory
  cases op : m.current.opcode with
  | read =>
    simp only [Machine.plan, ← opcode, op]
    rw [operand (by rw [op]; rfl)]
  | write | load | loadIndex | loadIndexed =>
    simp only [Machine.plan, ← opcode, op]
    rw [(addressAlike (by rw [op]; rfl)).operandWord]
  | loadImmediate =>
    simp only [Machine.plan, ← opcode, op]
    rw [alike.word.immediate op]
  | store | storeIndexed =>
    simp only [Machine.plan, ← opcode, op]
    rw [effectiveAddress (by rw [op]; exact .inr rfl), alike.same.accumulator]
    simp only [storing]
  | add | addIndexed | subtract | subtractIndexed | multiply | multiplyIndexed =>
    simp only [Machine.plan, ← opcode, op]
    rw [(addressAlike (by rw [op]; rfl)).arithmetic]
  | divide | divideIndexed =>
    simp only [Machine.plan, ← opcode, op]
    rw [(addressAlike (by rw [op]; rfl)).division]
  | increment | decrement =>
    simp only [Machine.plan, ← opcode, op, Registers.increment, Registers.decrement,
      alike.same.index]
  | branch =>
    simp only [Machine.plan, ← opcode, op]
    rw [operand (by rw [op]; rfl)]
  | branchNeg =>
    simp only [Machine.plan, ← opcode, op]
    rw [operand (by rw [op]; rfl), alike.same.branchOnSign]
  | branchZero =>
    simp only [Machine.plan, ← opcode, op]
    rw [operand (by rw [op]; rfl), alike.same.branchOnZero]
  | swap => simp only [Machine.plan, ← opcode, op, alike.same.exchange]
  | halt =>
    simp only [Machine.plan, ← opcode, op, Instruction.haltPages]
    rw [operand (by rw [op]; rfl)]
  | unknown code => simp only [Machine.plan, ← opcode, op, alike.same.location]

theorem receive (alike : UsedAlike S m n) (address : UInt64) (value : Option Int64) :
    m.receive address value = n.receive address value := by
  have storing := alike.same.storing alike.memory
  unfold Machine.receive
  rw [alike.same.location]
  simp only [storing]

theorem reply (alike : UsedAlike S m n) {ι : Type} [Source ι] (input : ι) :
    m.reply input = n.reply input := by
  have receive : m.receive = n.receive := by
    funext address value
    exact alike.receive address value
  unfold Machine.reply
  rw [alike.plan, receive]

end UsedAlike

end Machine

end DecimalMachine
