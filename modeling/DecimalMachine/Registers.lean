import DecimalMachine.Memory

/-!
The registers. The counter is kept on the first page by `jump`; the index register holds any 32-bit
integer and wraps.
-/

namespace DecimalMachine

structure Registers where
  accumulator : Word
  index : Int32
  counter : UInt64
  instruction : Word
  deriving DecidableEq

namespace Registers

def zero : Registers := ⟨.zero, 0, 0, .zero⟩

/-- A target beyond the first page lands on location 0. -/
def jump (r : Registers) (target : UInt64) : Registers :=
  { r with counter := if target.toNat < Memory.pageSize then target else 0 }

def advance (r : Registers) : Registers := r.jump (r.counter + 1)

theorem next_toNat {r : Registers} (inside : r.counter.toNat < Memory.capacity) :
    (r.counter + 1).toNat = r.counter.toNat + 1 := by
  simp only [Memory.capacity] at inside
  rw [UInt64.toNat_add]
  exact Nat.mod_eq_of_lt (by simp only [UInt64.reduceToNat]; omega)

def increment (r : Registers) : Registers := { r with index := r.index + 1 }

def decrement (r : Registers) : Registers := { r with index := r.index - 1 }

def indexAddress (r : Registers) : Int64 := r.index.toInt64

theorem indexAddress_toInt (r : Registers) : r.indexAddress.toInt = r.index.toInt :=
  Int32.toInt_toInt64 r.index

def describe (r : Registers) : String :=
  Text.record "Registers" [("accumulator", r.accumulator.describe),
    ("index", toString r.index.toInt), ("counter", toString r.counter.toNat),
    ("instruction", r.instruction.describe)]

end Registers

end DecimalMachine
