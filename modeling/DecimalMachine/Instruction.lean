import DecimalMachine.Opcode
import DecimalMachine.Text.Record
import DecimalMachine.Word

/-!
Decoded instructions: an operation and its operand.
-/

namespace DecimalMachine

structure Instruction where
  opcode : Opcode
  operand : UInt16
  deriving DecidableEq

namespace Instruction

def ofWord (w : Word) : Instruction := ⟨Opcode.ofCode w.opcode, w.operand⟩

/-- The positive word of an instruction. -/
def toWord (i : Instruction) : Except WordError Word := Word.pack false i.opcode.code i.operand

/-- The first and the last page that a `HALT` with this operand names. -/
def haltPages (i : Instruction) : UInt64 × UInt64 :=
  let operand := i.operand.toUInt64
  (operand / 100, operand % 100)

theorem haltPages_toNat (i : Instruction) :
    i.haltPages.1.toNat = i.operand.toNat / 100 ∧ i.haltPages.2.toNat = i.operand.toNat % 100 := by
  have hundred : (100 : UInt64).toNat = 100 := rfl
  simp only [haltPages, UInt64.toNat_div, UInt64.toNat_mod, UInt16.toNat_toUInt64,
    hundred, and_self]

def codeNumeral : Decimal.Numeral := { width := 2 }

def operandNumeral : Decimal.Numeral := { width := 4 }

def text (i : Instruction) : String :=
  "(OpCode: " ++ codeNumeral.write i.opcode.code.toNat ++ ", Operand: " ++
    operandNumeral.write i.operand.toNat ++ ")"

def describe (i : Instruction) : String :=
  Text.record "Instruction" [("opcode", i.opcode.describe), ("operand", toString i.operand.toNat)]

end Instruction

end DecimalMachine
