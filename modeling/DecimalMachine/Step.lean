import DecimalMachine.Console

/-!
One instruction.

A step latches the word at the counter, then asks three questions in turn. `Machine.plan` says what
the instruction wants, from the latched machine alone; `Machine.carryOut` does what it wants of the
console, while the machine stays as it is; `Machine.commit` makes the change and counts the
instruction. Whatever fails, fails before the change.

The count is meant to be checked: an instruction that is completed when it is full breaks the
process off. A step cannot say so. The machine that it gives there, with the count back at zero, is
none that the process ever has, and no run takes such a step.
-/

namespace DecimalMachine

inductive StepError where
  | notRunning (state : State)
  | memory (error : MemoryError)
  | fault (fault : Fault)
  | io (error : IoError)
  deriving DecidableEq

def StepError.message : StepError → String
  | .notRunning state => "CPU not running: " ++ state.describe
  | .memory error => "memory error: " ++ error.message
  | .fault f => f.message
  | .io error => "console I/O error: " ++ error.message

inductive Change where
  | accumulate (value : Word)
  | setIndex (value : Int32)
  | exchange (accumulator : Word) (index : Int32)
  | store (address : UInt64) (value : Word)
  | jump (target : UInt64)
  | halt (first last : UInt64)
  | nothing

inductive Action where
  | change (change : Change)
  | ask (address : UInt64)
  | print (value : Word)

namespace Machine

def location (m : Machine) : UInt64 := m.registers.counter

def current (m : Machine) : Instruction := Instruction.ofWord m.registers.instruction

def latch (m : Machine) : Except StepError Machine :=
  match m.state with
  | .running =>
    match m.memory.read m.location with
    | .ok word => .ok { m with registers := { m.registers with instruction := word } }
    | .error e => .error (.memory e)
  | state => .error (.notRunning state)

def wordAt (m : Machine) (address : UInt64) : Except Fault Word :=
  match m.memory.read address with
  | .ok word => .ok word
  | .error _ => .error (.outOfRange address.toInt64 m.location)

def storing (m : Machine) (address : UInt64) (value : Word) : Except Fault Change :=
  if m.memory.contains address then .ok (.store address value)
  else .error (.outOfRange address.toInt64 m.location)

def effectiveAddress (m : Machine) (i : Instruction) : Except Fault UInt64 :=
  if i.opcode.isIndexed then
    match Memory.index m.registers.indexAddress with
    | .ok address => .ok address
    | .error _ => .error (.outOfRange m.registers.indexAddress m.location)
  else .ok i.operand.toUInt64

def operandWord (m : Machine) (i : Instruction) : Except Fault Word :=
  (m.effectiveAddress i).bind m.wordAt

def result (m : Machine) (value : Int) : Except Fault Word :=
  match Word.ofInt? value with
  | some word => .ok word
  | none => .error (.accumulatorOverflow (Int64.ofInt value) m.location)

def arithmetic (m : Machine) (i : Instruction) (f : Int → Int → Int) : Except Fault Change :=
  (m.operandWord i).bind fun right =>
    (m.result (f m.registers.accumulator.value right.value)).map .accumulate

def division (m : Machine) (i : Instruction) : Except Fault Change :=
  (m.operandWord i).bind fun divisor =>
    if divisor.isZero then .error (.divisionByZero m.location)
    else (m.result (m.registers.accumulator.value.tdiv divisor.value)).map .accumulate

/-- A branch on the sign. At location 3, one that is not taken goes back to location 0. -/
def branchOnSign (m : Machine) (target : UInt64) : Change :=
  if m.registers.accumulator.isNegative then .jump target
  else if m.location == 3 then .jump 0
  else .nothing

def branchOnZero (m : Machine) (target : UInt64) : Change :=
  if m.registers.accumulator.isZero then .jump target else .nothing

def exchange (m : Machine) : Except Fault Change :=
  (m.result m.registers.index.toInt).map fun word =>
    .exchange word m.registers.accumulator.toIndex

/-- What the instruction wants of the latched machine, or the fault that it raises. -/
def plan (m : Machine) (i : Instruction) : Except Fault Action :=
  match i.opcode with
  | .read => .ok (.ask i.operand.toUInt64)
  | .write => (m.operandWord i).map .print
  | .load | .loadIndexed => (m.operandWord i).map fun word => .change (.accumulate word)
  | .loadImmediate => .ok (.change (.accumulate m.registers.instruction.immediate))
  | .loadIndex => (m.operandWord i).map fun word => .change (.setIndex word.toIndex)
  | .store | .storeIndexed =>
    (m.effectiveAddress i).bind fun address =>
      (m.storing address m.registers.accumulator).map .change
  | .add | .addIndexed => (m.arithmetic i (· + ·)).map .change
  | .subtract | .subtractIndexed => (m.arithmetic i (· - ·)).map .change
  | .multiply | .multiplyIndexed => (m.arithmetic i (· * ·)).map .change
  | .divide | .divideIndexed => (m.division i).map .change
  | .increment => .ok (.change (.setIndex m.registers.increment.index))
  | .decrement => .ok (.change (.setIndex m.registers.decrement.index))
  | .branch => .ok (.change (.jump i.operand.toUInt64))
  | .branchNeg => .ok (.change (m.branchOnSign i.operand.toUInt64))
  | .branchZero => .ok (.change (m.branchOnZero i.operand.toUInt64))
  | .swap => m.exchange.map .change
  | .halt => .ok (.change (.halt i.haltPages.1 i.haltPages.2))
  | .unknown code => .error (.unknownOpcode code m.location)

def receive (m : Machine) (address : UInt64) : Option Int64 → Except Fault Change
  | none => .error (.inputExhausted m.location)
  | some value =>
    match Word.ofInt64 value with
    | .error _ => .error (.invalidInput value m.location)
    | .ok word => m.storing address word

/-- The counter moves on, unless the change moved it or stopped the machine. -/
def commit : Machine → Change → Machine
  | ⟨registers, memory, state, cycles, trace⟩, change =>
    match change with
    | .accumulate value =>
      ⟨{ registers with accumulator := value }.advance, memory, state, cycles + 1, trace⟩
    | .setIndex value =>
      ⟨{ registers with index := value }.advance, memory, state, cycles + 1, trace⟩
    | .exchange accumulator index =>
      ⟨{ registers with accumulator, index }.advance, memory, state, cycles + 1, trace⟩
    | .store address value =>
      ⟨registers.advance, memory.set address value, state, cycles + 1, trace⟩
    | .jump target => ⟨registers.jump target, memory, state, cycles + 1, trace⟩
    | .halt first last => ⟨registers, memory, .halted first last, cycles + 1, trace⟩
    | .nothing => ⟨registers.advance, memory, state, cycles + 1, trace⟩

def announcement (m : Machine) : String :=
  "Executing instruction at " ++ Fault.locationText m.location ++ ": " ++
    m.registers.instruction.text ++ " " ++ m.current.text

variable {ι ω : Type}

def announce [Sink ω] (m : Machine) : Dialogue ι ω IoError Unit := do
  Console.note (.fetched m.location m.registers.instruction)
  if m.trace then Console.writeLine m.announcement

def carryOut [Source ι] [Sink ω] (m : Machine) :
    Action → Dialogue ι ω IoError (Except Fault Change)
  | .change change => pure (.ok change)
  | .print value => do
    Console.writeLine (Decimal.Numeral.plain.write value.value)
    return .ok .nothing
  | .ask address => do
    Console.prompt "? "
    return m.receive address (← Console.read)

def notice (m : Machine) : Except Fault Change → Dialogue ι ω IoError Unit
  | .error fault => Console.note (.faulted fault)
  | .ok (.halt ..) => Console.note (.halted m.location (m.cycles + 1))
  | .ok _ => pure ()

/-- Everything that the latched instruction does on the console, and the change or the fault that it
comes to. -/
def perform [Source ι] [Sink ω] (m : Machine) : Dialogue ι ω IoError (Except Fault Change) := do
  m.announce
  let settled ← match m.plan m.current with
    | .error fault => pure (.error fault)
    | .ok action => m.carryOut action
  m.notice settled
  return settled

end Machine

structure Session (ι ω : Type) where
  machine : Machine
  console : Console ι ω

abbrev Execution (ι ω α : Type) := EStateM StepError (Session ι ω) α

variable {ι ω : Type}

def step [Source ι] [Sink ω] : Execution ι ω Instruction := fun ⟨machine, console⟩ =>
  match machine.latch with
  | .error e => .error e ⟨machine, console⟩
  | .ok machine =>
    match machine.perform console with
    | .error e console => .error (.io e) ⟨machine, console⟩
    | .ok (.error fault) console =>
      .error (.fault fault) ⟨{ machine with state := .faulted fault }, console⟩
    | .ok (.ok change) console => .ok machine.current ⟨machine.commit change, console⟩

end DecimalMachine
