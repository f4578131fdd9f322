import DecimalMachine.Proofs.Step

/-!
What an instruction can plan, and which faults it can raise.

`plan_yields` goes through the instruction set once. Each function that a plan is made of has its
own lemma, and `Yields.bind` and `Yields.map` put them together.
-/

namespace DecimalMachine

def Yields {α : Type} (faults : Fault → Prop) (values : α → Prop) : Except Fault α → Prop
  | .error fault => faults fault
  | .ok a => values a

namespace Yields

variable {α β : Type} {faults : Fault → Prop} {values : α → Prop} {results : β → Prop}

theorem bind {computed : Except Fault α} {next : α → Except Fault β}
    (first : Yields faults values computed)
    (rest : ∀ a, values a → Yields faults results (next a)) :
    Yields faults results (computed.bind next) := by
  cases computed with
  | error fault => exact first
  | ok a => exact rest a first

theorem map {computed : Except Fault α} {f : α → β} (first : Yields faults values computed)
    (image : ∀ a, values a → results (f a)) : Yields faults results (computed.map f) := by
  cases computed with
  | error fault => exact first
  | ok a => exact image a first

theorem weaken {faults' : Fault → Prop} {computed : Except Fault α}
    (yields : Yields faults values computed) (weaker : ∀ fault, faults fault → faults' fault) :
    Yields faults' values computed := by
  cases computed with
  | error fault => exact weaker fault yields
  | ok a => exact yields

theorem of_error {computed : Except Fault α} {fault : Fault}
    (yields : Yields faults values computed) (raised : computed = .error fault) : faults fault := by
  rw [raised] at yields
  exact yields

theorem of_ok {computed : Except Fault α} {a : α} (yields : Yields faults values computed)
    (given : computed = .ok a) : values a := by
  rw [given] at yields
  exact yields

end Yields

namespace Machine

/-- A fault of the instruction is at its location, and names an unknown code only if the instruction
has that code. -/
structure FaultOf (m : Machine) (i : Instruction) (fault : Fault) : Prop where
  location : fault.location = m.location
  code : ∀ code location, fault = .unknownOpcode code location → i.opcode = .unknown code

inductive PlanFault (m : Machine) (i : Instruction) : Fault → Prop where
  | unknownOpcode (code : UInt8) (op : i.opcode = .unknown code) :
      PlanFault m i (.unknownOpcode code m.location)
  | outOfRange (address : Int64) : PlanFault m i (.outOfRange address m.location)
  | divisionByZero : PlanFault m i (.divisionByZero m.location)
  | accumulatorOverflow (value : Int64) : PlanFault m i (.accumulatorOverflow value m.location)

theorem PlanFault.faultOf {m : Machine} {i : Instruction} {fault : Fault}
    (raised : m.PlanFault i fault) : m.FaultOf i fault := by
  cases raised with
  | unknownOpcode code op =>
    refine ⟨rfl, ?_⟩
    intro code' location same
    cases same
    exact op
  | outOfRange | divisionByZero | accumulatorOverflow => exact ⟨rfl, nofun⟩

inductive ActionOf (m : Machine) (i : Instruction) : Action → Prop where
  | ask (op : i.opcode = .read) : ActionOf m i (.ask i.operand.toUInt64)
  | print (w : Word) (op : i.opcode = .write) : ActionOf m i (.print w)
  | accumulate (w : Word) : ActionOf m i (.change (.accumulate w))
  | loadIndex (w : Word) (op : i.opcode = .loadIndex) :
      ActionOf m i (.change (.setIndex w.toIndex))
  | increment (op : i.opcode = .increment) :
      ActionOf m i (.change (.setIndex (m.registers.index + 1)))
  | decrement (op : i.opcode = .decrement) :
      ActionOf m i (.change (.setIndex (m.registers.index - 1)))
  | exchange (w : Word) (op : i.opcode = .swap) (value : w.value = m.registers.index.toInt) :
      ActionOf m i (.change (.exchange w m.registers.accumulator.toIndex))
  | store (address : UInt64) (op : i.opcode = .store ∨ i.opcode = .storeIndexed)
      (inside : m.memory.contains address) :
      ActionOf m i (.change (.store address m.registers.accumulator))
  | jump (target : UInt64)
      (op : i.opcode = .branch ∨ i.opcode = .branchNeg ∨ i.opcode = .branchZero) :
      ActionOf m i (.change (.jump target))
  | pass (op : i.opcode = .branchNeg ∨ i.opcode = .branchZero) : ActionOf m i (.change .nothing)
  | halt (op : i.opcode = .halt) :
      ActionOf m i (.change (.halt i.haltPages.1 i.haltPages.2))

theorem effectiveAddress_yields (m : Machine) (i : Instruction) :
    Yields (m.PlanFault i) (fun _ => True) (m.effectiveAddress i) := by
  unfold effectiveAddress
  split
  · split
    · trivial
    · exact .outOfRange _
  · trivial

theorem wordAt_yields (m : Machine) (i : Instruction) (address : UInt64) :
    Yields (m.PlanFault i) (fun _ => True) (m.wordAt address) := by
  unfold wordAt
  split
  · trivial
  · exact .outOfRange _

theorem storing_yields (m : Machine) (i : Instruction) (address : UInt64) (w : Word) :
    Yields (m.PlanFault i) (fun change => m.memory.contains address ∧ change = .store address w)
      (m.storing address w) := by
  unfold storing
  split
  · rename_i inside
    exact ⟨inside, rfl⟩
  · exact .outOfRange _

theorem operandWord_yields (m : Machine) (i : Instruction) :
    Yields (m.PlanFault i) (fun _ => True) (m.operandWord i) :=
  (m.effectiveAddress_yields i).bind fun address _ => m.wordAt_yields i address

theorem result_yields (m : Machine) (i : Instruction) (value : Int) :
    Yields (m.PlanFault i) (fun w => w.value = value) (m.result value) := by
  unfold result
  split
  · rename_i made
    exact Word.value_of_ofInt? made
  · exact .accumulatorOverflow _

theorem arithmetic_yields (m : Machine) (i : Instruction) (f : Int → Int → Int) :
    Yields (m.PlanFault i) (fun change => ∃ w, change = .accumulate w) (m.arithmetic i f) := by
  apply (m.operandWord_yields i).bind
  intro right _
  exact (m.result_yields i _).map fun w _ => ⟨w, rfl⟩

theorem division_yields (m : Machine) (i : Instruction) :
    Yields (m.PlanFault i) (fun change => ∃ w, change = .accumulate w) (m.division i) := by
  apply (m.operandWord_yields i).bind
  intro divisor _
  split
  · exact .divisionByZero
  · exact (m.result_yields i _).map fun w _ => ⟨w, rfl⟩

theorem exchange_yields (m : Machine) (i : Instruction) :
    Yields (m.PlanFault i) (fun change => ∃ w : Word, w.value = m.registers.index.toInt ∧
      change = .exchange w m.registers.accumulator.toIndex) m.exchange :=
  (m.result_yields i _).map fun w value => ⟨w, value, rfl⟩

theorem plan_yields (m : Machine) (i : Instruction) :
    Yields (m.PlanFault i) (m.ActionOf i) (m.plan i) := by
  have operandWord := m.operandWord_yields i
  cases op : i.opcode with
  | read =>
    simp only [plan, op]
    exact .ask op
  | write =>
    simp only [plan, op]
    exact operandWord.map fun w _ => .print w op
  | load | loadIndexed =>
    simp only [plan, op]
    exact operandWord.map fun w _ => .accumulate w
  | loadImmediate =>
    simp only [plan, op]
    exact .accumulate _
  | loadIndex =>
    simp only [plan, op]
    exact operandWord.map fun w _ => .loadIndex w op
  | store | storeIndexed =>
    simp only [plan, op]
    apply (m.effectiveAddress_yields i).bind
    intro address _
    apply (m.storing_yields i address _).map
    rintro change ⟨inside, rfl⟩
    exact .store address (by simp [op]) inside
  | add | addIndexed | subtract | subtractIndexed | multiply | multiplyIndexed =>
    simp only [plan, op]
    apply (m.arithmetic_yields i _).map
    rintro change ⟨w, rfl⟩
    exact .accumulate w
  | divide | divideIndexed =>
    simp only [plan, op]
    apply (m.division_yields i).map
    rintro change ⟨w, rfl⟩
    exact .accumulate w
  | increment =>
    simp only [plan, op]
    exact .increment op
  | decrement =>
    simp only [plan, op]
    exact .decrement op
  | branch =>
    simp only [plan, op]
    exact .jump _ (by simp [op])
  | branchNeg =>
    simp only [plan, op, branchOnSign]
    split
    · exact .jump _ (by simp [op])
    · split
      · exact .jump _ (by simp [op])
      · exact .pass (by simp [op])
  | branchZero =>
    simp only [plan, op, branchOnZero]
    split
    · exact .jump _ (by simp [op])
    · exact .pass (by simp [op])
  | swap =>
    simp only [plan, op]
    apply (m.exchange_yields i).map
    rintro change ⟨w, value, rfl⟩
    exact .exchange w op value
  | halt =>
    simp only [plan, op]
    exact .halt op
  | unknown code =>
    simp only [plan, op]
    exact .unknownOpcode code op

theorem receive_yields (m : Machine) (i : Instruction) (address : UInt64) (value : Option Int64) :
    Yields (m.FaultOf i) (fun change => ∃ w, change = .store address w)
      (m.receive address value) := by
  unfold receive
  split
  · exact ⟨rfl, nofun⟩
  · split
    · exact ⟨rfl, nofun⟩
    · rename_i w _
      have stored := m.storing_yields i address w
      cases computed : m.storing address w with
      | error fault => exact (stored.of_error computed).faultOf
      | ok change => exact ⟨w, (stored.of_ok computed).2⟩

/-! ### What an instruction comes to -/

theorem Settles.faultOf {m : Machine} {fault : Fault} (settles : m.Settles (.error fault)) :
    m.FaultOf m.current fault := by
  generalize outcome : (.error fault : Except Fault Change) = settled at settles
  cases settles with
  | refused planned =>
    cases outcome
    exact ((m.plan_yields m.current).of_error planned).faultOf
  | changed | printed => cases outcome
  | answered value planned => exact (m.receive_yields m.current _ value).of_error outcome.symm

/-- What a completed instruction changes: what was planned, nothing behind a print, or the cell that
a value was read for. -/
inductive Makes (m : Machine) : Change → Prop where
  | planned {change : Change} (planned : m.plan m.current = .ok (.change change))
      (action : m.ActionOf m.current (.change change)) : Makes m change
  | printed (op : m.current.opcode = .write) : Makes m .nothing
  | answered (w : Word) (op : m.current.opcode = .read) :
      Makes m (.store m.current.operand.toUInt64 w)

theorem Settles.makes {m : Machine} {change : Change} (settles : m.Settles (.ok change)) :
    m.Makes change := by
  generalize outcome : (.ok change : Except Fault Change) = settled at settles
  cases settles with
  | refused => cases outcome
  | changed planned =>
    cases outcome
    exact .planned planned ((m.plan_yields m.current).of_ok planned)
  | printed planned =>
    cases outcome
    cases (m.plan_yields m.current).of_ok planned with
    | print w op => exact .printed op
  | answered value planned =>
    obtain ⟨w, rfl⟩ := (m.receive_yields m.current _ value).of_ok outcome.symm
    cases (m.plan_yields m.current).of_ok planned with
    | ask op => exact .answered w op

theorem Settles.of_halt {m : Machine} {first last : UInt64}
    (settles : m.Settles (.ok (.halt first last))) :
    m.current.opcode = .halt ∧ m.current.haltPages = (first, last) := by
  cases settles.makes with
  | planned _ action =>
    cases action with
    | halt op => exact ⟨op, rfl⟩

end Machine

end DecimalMachine
