import DecimalMachine.Machine
import DecimalMachine.Text.Columns

/-!
The dump: the registers, and the requested pages of memory as grids of ten rows.

Pages that memory does not have are left out, so an empty range shows the registers alone.
-/

namespace DecimalMachine

open Decimal (Numeral)

namespace Machine

def indexNumeral : Numeral := Word.numeral

def registerLines (m : Machine) : List String :=
  let r := m.registers
  ["",
    "REGISTERS:",
    "accumulator          " ++ r.accumulator.text,
    "instructionCounter   " ++ Fault.locationText r.counter,
    "instructionRegister  " ++ r.instruction.text,
    "operationCode        " ++ Instruction.codeNumeral.write r.instruction.opcode.toNat,
    "indexRegister        " ++ indexNumeral.write r.index.toInt,
    "",
    "MEMORY:"]

end Machine

namespace Memory

def pageNumeral : Numeral := { width := 2 }

def cellNumeral : Numeral := { width := 6 }

def gridHeader : String :=
  "       0      1      2      3      4      5      6      7      8      9"

/-- The label of a row is the number of its first cell in the page, in three columns. -/
def rowLabel (row : Nat) : String := Text.padLeft 3 (Numeral.plain.write (10 * row))

def rowLine (words : List Word) (row : Nat) : String :=
  let cells := (words.drop (10 * row)).take 10
  rowLabel row ++ " " ++ String.join (cells.map fun cell => cellNumeral.write cell.value ++ " ")

def pageLines (number : Nat) (words : List Word) : List String :=
  ("PAGE # " ++ pageNumeral.write number) :: "" :: gridHeader ::
    (List.range 10).map (rowLine words) ++ [""]

def pageLines? (m : Memory) (number : Nat) : List String :=
  match m.page (UInt64.ofNat number) with
  | .ok words => pageLines number words
  | .error _ => []

def requested (first last : UInt64) : List Nat :=
  (List.range pageCount).filter fun number => first.toNat ≤ number && number ≤ last.toNat

end Memory

def Machine.dumpLines (m : Machine) (first last : UInt64) : List String :=
  m.registerLines ++ (Memory.requested first last).flatMap m.memory.pageLines?

end DecimalMachine
