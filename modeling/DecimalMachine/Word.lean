import DecimalMachine.Text.Decimal

/-!
The machine's word: a signed decimal integer of at most six digits.

A word is also an instruction: by magnitude, the two high digits are the operation code and the four
low digits the operand. The sign takes no part in that reading.
-/

namespace DecimalMachine

open Decimal (Numeral)

@[ext]
structure Word where
  value : Int
  lower : -999999 ≤ value
  upper : value ≤ 999999
  deriving DecidableEq

inductive WordError where
  | outOfRange (value : Int64)
  | opcodeOutOfRange (opcode : UInt8)
  | operandOutOfRange (operand : UInt16)
  deriving DecidableEq

def WordError.message : WordError → String
  | .outOfRange value => s!"value {value.toInt} out of range for a word [-999999, 999999]"
  | .opcodeOutOfRange opcode => s!"opcode {opcode.toNat} does not fit in two digits"
  | .operandOutOfRange operand => s!"operand {operand.toNat} does not fit in four digits"

namespace Word

def ofInt? (z : Int) : Option Word :=
  if h : -999999 ≤ z ∧ z ≤ 999999 then some ⟨z, h.1, h.2⟩ else none

theorem ofInt?_value (w : Word) : ofInt? w.value = some w := dif_pos ⟨w.lower, w.upper⟩

theorem value_of_ofInt? {z : Int} {w : Word} (h : ofInt? z = some w) : w.value = z := by
  unfold ofInt? at h
  split at h
  · exact (congrArg value (Option.some.inj h)).symm
  · cases h

theorem ofInt?_eq_none_iff {z : Int} : ofInt? z = none ↔ z < -999999 ∨ 999999 < z := by
  unfold ofInt?
  split <;> simp <;> omega

def ofInt64 (z : Int64) : Except WordError Word :=
  match ofInt? z.toInt with
  | some w => .ok w
  | none => .error (.outOfRange z)

def zero : Word := ⟨0, by decide, by decide⟩

instance : Inhabited Word := ⟨zero⟩

instance : Ord Word := ⟨fun a b => compare a.value b.value⟩

def neg (w : Word) : Word :=
  ⟨-w.value, by have := w.upper; omega, by have := w.lower; omega⟩

/-- The instruction word of an operation code and an operand. The code is checked first. -/
def pack (negative : Bool) (opcode : UInt8) (operand : UInt16) : Except WordError Word :=
  if hc : opcode.toNat ≤ 99 then
    if ho : operand.toNat ≤ 9999 then
      let w : Word := ⟨opcode.toNat * 10000 + operand.toNat, by omega, by omega⟩
      .ok (if negative then w.neg else w)
    else .error (.operandOutOfRange operand)
  else .error (.opcodeOutOfRange opcode)

def opcode (w : Word) : UInt8 := UInt8.ofNat (w.value.natAbs / 10000)

def operand (w : Word) : UInt16 := UInt16.ofNat (w.value.natAbs % 10000)

theorem natAbs_lt (w : Word) : w.value.natAbs < 1000000 := by
  have := w.lower
  have := w.upper
  omega

theorem opcode_toNat (w : Word) : w.opcode.toNat = w.value.natAbs / 10000 := by
  have := w.natAbs_lt
  exact UInt8.toNat_ofNat_of_lt' (by simp only [UInt8.size]; omega)

theorem operand_toNat (w : Word) : w.operand.toNat = w.value.natAbs % 10000 :=
  UInt16.toNat_ofNat_of_lt' (by simp only [UInt16.size]; omega)

/-- The word as a literal operand: its value modulo one million, with its sign. -/
def immediate (w : Word) : Word :=
  ⟨w.value.tmod 1000000,
    by have := Int.lt_tmod_of_pos w.value (b := 1000000) (by decide); omega,
    by have := Int.tmod_lt_of_pos w.value (b := 1000000) (by decide); omega⟩

def isNegative (w : Word) : Bool := w.value < 0

def isZero (w : Word) : Bool := w.value == 0

def numeral : Numeral := { plus := true, width := 6 }

def text (w : Word) : String := numeral.write w.value

def describe (w : Word) : String := "Word(" ++ w.text ++ ")"

def toIndex (w : Word) : Int32 := Int32.ofInt w.value

end Word

end DecimalMachine
