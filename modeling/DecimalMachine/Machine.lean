import DecimalMachine.Instruction
import DecimalMachine.Registers

/-!
The machine's state: registers, memory, run state, the count of instructions carried out, and
whether each of them is announced.
-/

namespace DecimalMachine

inductive Fault where
  | unknownOpcode (code : UInt8) (location : UInt64)
  | outOfRange (address : Int64) (location : UInt64)
  | divisionByZero (location : UInt64)
  | accumulatorOverflow (value : Int64) (location : UInt64)
  | invalidInput (value : Int64) (location : UInt64)
  | inputExhausted (location : UInt64)
  deriving DecidableEq

namespace Fault

def location : Fault → UInt64
  | .unknownOpcode _ location => location
  | .outOfRange _ location => location
  | .divisionByZero location => location
  | .accumulatorOverflow _ location => location
  | .invalidInput _ location => location
  | .inputExhausted location => location

def locationNumeral : Decimal.Numeral := { width := 4 }

def locationText (location : UInt64) : String := locationNumeral.write location.toNat

def cause : Fault → String
  | .unknownOpcode code _ => "unknown opcode " ++ Instruction.codeNumeral.write code.toNat
  | .outOfRange address _ => s!"memory address {address.toInt} out of range"
  | .divisionByZero _ => "attempt to divide by zero"
  | .accumulatorOverflow value _ => s!"accumulator overflow ({value.toInt})"
  | .invalidInput value _ => s!"input value {value.toInt} out of range"
  | .inputExhausted _ => "input exhausted"

def message (f : Fault) : String := f.cause ++ " at location " ++ locationText f.location

def name : Fault → String
  | .unknownOpcode .. => "UnknownOpcode"
  | .outOfRange .. => "OutOfRange"
  | .divisionByZero .. => "DivisionByZero"
  | .accumulatorOverflow .. => "AccumulatorOverflow"
  | .invalidInput .. => "InvalidInput"
  | .inputExhausted .. => "InputExhausted"

def payload : Fault → List (String × Int)
  | .unknownOpcode code _ => [("code", code.toNat)]
  | .outOfRange address _ => [("address", address.toInt)]
  | .divisionByZero _ => []
  | .accumulatorOverflow value _ => [("value", value.toInt)]
  | .invalidInput value _ => [("value", value.toInt)]
  | .inputExhausted _ => []

def fields (f : Fault) : List (String × Int) :=
  f.payload ++ [("location", (f.location.toNat : Int))]

def describe (f : Fault) : String :=
  Text.record f.name (f.fields.map fun field => (field.1, toString field.2))

end Fault

inductive State where
  | running
  /-- Stopped by `HALT`, which named the pages to show. -/
  | halted (first last : UInt64)
  | faulted (fault : Fault)
  deriving DecidableEq

def State.describe : State → String
  | .running => "Running"
  | .halted first last =>
    Text.record "Halted"
      [("start_page", toString first.toNat), ("end_page", toString last.toNat)]
  | .faulted fault => "Faulted(" ++ fault.describe ++ ")"

structure Machine where
  registers : Registers
  memory : Memory
  state : State
  cycles : UInt64
  trace : Bool
  deriving DecidableEq

namespace Machine

def fresh : Machine := ⟨.zero, .blank, .running, 0, true⟩

def isRunning (m : Machine) : Bool := m.state == .running

def isHalted (m : Machine) : Bool :=
  match m.state with
  | .halted .. => true
  | _ => false

def fault? (m : Machine) : Option Fault :=
  match m.state with
  | .faulted fault => some fault
  | _ => none

def loadProgram (m : Machine) (program : List Word) : Placement Machine :=
  (m.memory.place 0 program).map fun memory => { m with memory }

def describe (m : Machine) : String :=
  Text.record "Cpu" [("state", m.state.describe), ("cycles", toString m.cycles.toNat),
    ("regs", m.registers.describe)]

end Machine

end DecimalMachine
