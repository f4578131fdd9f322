/-!
The operation codes of the instruction set, and their mnemonics.

Every code stands for an operation: the codes outside the instruction set stand for `unknown`, which
no machine can carry out.
-/

namespace DecimalMachine

inductive Opcode where
  | read
  | write
  | load
  | loadImmediate
  | loadIndex
  | loadIndexed
  | store
  | storeIndexed
  | add
  | addIndexed
  | subtract
  | subtractIndexed
  | divide
  | divideIndexed
  | multiply
  | multiplyIndexed
  | increment
  | decrement
  | branch
  | branchNeg
  | branchZero
  | swap
  | halt
  | unknown (code : UInt8)
  deriving DecidableEq

namespace Opcode

def all : List Opcode :=
  [.read, .write, .load, .loadImmediate, .loadIndex, .loadIndexed, .store, .storeIndexed,
    .add, .addIndexed, .subtract, .subtractIndexed, .divide, .divideIndexed,
    .multiply, .multiplyIndexed, .increment, .decrement,
    .branch, .branchNeg, .branchZero, .swap, .halt]

def code : Opcode → UInt8
  | .read => 10
  | .write => 11
  | .load => 20
  | .loadImmediate => 21
  | .loadIndex => 22
  | .loadIndexed => 23
  | .store => 25
  | .storeIndexed => 26
  | .add => 30
  | .addIndexed => 31
  | .subtract => 32
  | .subtractIndexed => 33
  | .divide => 34
  | .divideIndexed => 35
  | .multiply => 36
  | .multiplyIndexed => 37
  | .increment => 38
  | .decrement => 39
  | .branch => 40
  | .branchNeg => 41
  | .branchZero => 42
  | .swap => 43
  | .halt => 45
  | .unknown code => code

def ofCode (code : UInt8) : Opcode :=
  (all.find? fun op => op.code == code).getD (.unknown code)

def mnemonic : Opcode → String
  | .read => "READ"
  | .write => "WRITE"
  | .load => "LOAD"
  | .loadImmediate => "LOADIM"
  | .loadIndex => "LOADX"
  | .loadIndexed => "LOADIDX"
  | .store => "STORE"
  | .storeIndexed => "STOREIDX"
  | .add => "ADD"
  | .addIndexed => "ADDX"
  | .subtract => "SUBTRACT"
  | .subtractIndexed => "SUBTRACTX"
  | .divide => "DIVIDE"
  | .divideIndexed => "DIVIDEX"
  | .multiply => "MULTIPLY"
  | .multiplyIndexed => "MULTIPLYX"
  | .increment => "INC"
  | .decrement => "DEC"
  | .branch => "BRANCH"
  | .branchNeg => "BRANCHNEG"
  | .branchZero => "BRANCHZERO"
  | .swap => "SWAP"
  | .halt => "HALT"
  | .unknown _ => "???"

def name : Opcode → String
  | .read => "Read"
  | .write => "Write"
  | .load => "Load"
  | .loadImmediate => "LoadImmediate"
  | .loadIndex => "LoadIndex"
  | .loadIndexed => "LoadIndexed"
  | .store => "Store"
  | .storeIndexed => "StoreIndexed"
  | .add => "Add"
  | .addIndexed => "AddIndexed"
  | .subtract => "Subtract"
  | .subtractIndexed => "SubtractIndexed"
  | .divide => "Divide"
  | .divideIndexed => "DivideIndexed"
  | .multiply => "Multiply"
  | .multiplyIndexed => "MultiplyIndexed"
  | .increment => "Increment"
  | .decrement => "Decrement"
  | .branch => "Branch"
  | .branchNeg => "BranchNeg"
  | .branchZero => "BranchZero"
  | .swap => "Swap"
  | .halt => "Halt"
  | .unknown _ => "Unknown"

/-- The operations that address memory through the index register instead of their operand. -/
def isIndexed : Opcode → Bool
  | .loadIndexed | .storeIndexed | .addIndexed | .subtractIndexed | .divideIndexed
  | .multiplyIndexed => true
  | _ => false

def describe : Opcode → String
  | .unknown code => s!"Unknown({code.toNat})"
  | op => op.name

theorem code_ofCode (code : UInt8) : (ofCode code).code = code := by
  unfold ofCode
  cases h : all.find? fun op => op.code == code with
  | none => rfl
  | some op => simpa using List.find?_some h

theorem ofCode_code {op : Opcode} (recognized : op ∈ all) : ofCode op.code = op := by
  have cases : ∀ op ∈ all, ofCode op.code = op := by decide
  exact cases op recognized

theorem ofCode_eq_unknown {c code : UInt8} (unknown : ofCode c = .unknown code) :
    code = c ∧ ∀ op ∈ all, op.code ≠ c := by
  have named : ∀ op ∈ all, op ≠ .unknown code := by
    intro op recognized same
    subst same
    simp [all] at recognized
  unfold ofCode at unknown
  cases found : all.find? fun op => op.code == c with
  | none =>
    simp only [found, Option.getD_none, Opcode.unknown.injEq] at unknown
    exact ⟨unknown.symm, by simpa using found⟩
  | some op =>
    simp only [found, Option.getD_some] at unknown
    exact absurd unknown (named op (List.mem_of_find?_eq_some found))

end Opcode

end DecimalMachine
