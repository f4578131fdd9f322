import Mathlib.Logic.Function.Iterate
import DecimalMachine.Machine

/-!
The instruction table, read as a machine of its own.

Its cells, its accumulator, its input and its arithmetic are those of the integers; only the index
register wraps. It shares no definition with the engine but the numerals in which numbers are shown.
-/

namespace DecimalMachine.Reference

abbrev Address := Fin 10000

/-- Numbers beyond the last address start again at the first. -/
def address (n : Nat) : Address := Fin.ofNat 10000 n

/-- Targets beyond the first page land on location 0. -/
def onPage (target : Nat) : Address :=
  if h : target < 100 then ⟨target, Nat.lt_trans h (by decide)⟩ else 0

def isWord (z : Int) : Prop := -999999 ≤ z ∧ z ≤ 999999

instance (z : Int) : Decidable (isWord z) := inferInstanceAs (Decidable (_ ∧ _))

inductive Reason where
  | unknownOpcode (code : Nat)
  | outOfRange (address : Int)
  | divisionByZero
  | accumulatorOverflow (value : Int)
  | invalidInput (value : Int)
  | inputExhausted
  deriving DecidableEq

inductive Status where
  | running
  | halted (first last : Nat)
  | faulted (reason : Reason) (location : Nat)
  deriving DecidableEq

structure State where
  cells : Address → Int
  accumulator : Int
  index : Int32
  counter : Address
  status : Status
  unread : List Int
  output : String

namespace State

def print (s : State) (text : String) : State := { s with output := s.output ++ text }

def fault (s : State) (reason : Reason) : State :=
  { s with status := .faulted reason s.counter }

def jump (s : State) (target : Nat) : State := { s with counter := onPage target }

def advance (s : State) : State := s.jump (s.counter + 1)

def assign (s : State) (value : Int) : State := { s with accumulator := value }.advance

def setIndex (s : State) (value : Int32) : State := { s with index := value }.advance

def store (s : State) (address : Address) (value : Int) : State :=
  { s with cells := Function.update s.cells address value }.advance

def total (s : State) (value : Int) : State :=
  if isWord value then s.assign value else s.fault (.accumulatorOverflow value)

def quotient (s : State) (divisor : Int) : State :=
  if divisor = 0 then s.fault .divisionByZero else s.assign (s.accumulator.tdiv divisor)

def indexed (s : State) (effect : Address → State) : State :=
  if h : 0 ≤ s.index.toInt ∧ s.index.toInt < 10000 then effect ⟨s.index.toInt.toNat, by omega⟩
  else s.fault (.outOfRange s.index.toInt)

theorem indexed_of_inside {s : State} (inside : 0 ≤ s.index.toInt ∧ s.index.toInt < 10000)
    (effect : Address → State) : s.indexed effect = effect ⟨s.index.toInt.toNat, by omega⟩ :=
  dif_pos inside

theorem indexed_of_outside {s : State} (outside : ¬ (0 ≤ s.index.toInt ∧ s.index.toInt < 10000))
    (effect : Address → State) : s.indexed effect = s.fault (.outOfRange s.index.toInt) :=
  dif_neg outside

def receive (s : State) (address : Address) : State :=
  match s.unread with
  | [] => s.fault .inputExhausted
  | value :: rest =>
    let s := { s with unread := rest }
    if isWord value then s.store address value else s.fault (.invalidInput value)

def swapIn (s : State) (value : Int) : State :=
  { s with accumulator := value, index := Int32.ofInt s.accumulator }.advance

def exchange (s : State) : State :=
  if isWord s.index.toInt then s.swapIn s.index.toInt
  else s.fault (.accumulatorOverflow s.index.toInt)

def halt (s : State) (operand : Nat) : State :=
  { s with status := .halted (operand / 100) (operand % 100) }

/-- The table: what is done for each operation code. -/
def perform (s : State) (word : Int) (operand : Address) : Nat → State
  | 10 => (s.print "? ").receive operand
  | 11 => (s.print (Decimal.Numeral.plain.write (s.cells operand) ++ "\n")).advance
  | 20 => s.assign (s.cells operand)
  | 21 => s.assign word
  | 22 => s.setIndex (Int32.ofInt (s.cells operand))
  | 23 => s.indexed fun address => s.assign (s.cells address)
  | 25 => s.store operand s.accumulator
  | 26 => s.indexed fun address => s.store address s.accumulator
  | 30 => s.total (s.accumulator + s.cells operand)
  | 31 => s.indexed fun address => s.total (s.accumulator + s.cells address)
  | 32 => s.total (s.accumulator - s.cells operand)
  | 33 => s.indexed fun address => s.total (s.accumulator - s.cells address)
  | 34 => s.quotient (s.cells operand)
  | 35 => s.indexed fun address => s.quotient (s.cells address)
  | 36 => s.total (s.accumulator * s.cells operand)
  | 37 => s.indexed fun address => s.total (s.accumulator * s.cells address)
  | 38 => s.setIndex (s.index + 1)
  | 39 => s.setIndex (s.index - 1)
  | 40 => s.jump operand
  | 41 =>
    if s.accumulator < 0 then s.jump operand
    else if s.counter = 3 then s.jump 0
    else s.advance
  | 42 => if s.accumulator = 0 then s.jump operand else s.advance
  | 43 => s.exchange
  | 45 => s.halt operand
  | code => s.fault (.unknownOpcode code)

def execute (s : State) (word : Int) : State :=
  s.perform word ⟨word.natAbs % 10000, Nat.mod_lt _ (by decide)⟩ (word.natAbs / 10000)

def announcement (s : State) (word : Int) : String :=
  "Executing instruction at " ++ Fault.locationNumeral.write s.counter.val ++ ": " ++
    Word.numeral.write word ++ " " ++
    ("(OpCode: " ++ Instruction.codeNumeral.write (word.natAbs / 10000 : Nat) ++ ", Operand: " ++
      Instruction.operandNumeral.write (word.natAbs % 10000 : Nat) ++ ")") ++ "\n"

def announced (tracing : Bool) (s : State) (word : Int) : State :=
  if tracing then s.print (s.announcement word) else s

end State

def step (tracing : Bool) (s : State) : State :=
  match s.status with
  | .running => (s.announced tracing (s.cells s.counter)).execute (s.cells s.counter)
  | _ => s

theorem step_stopped {s : State} (stopped : s.status ≠ .running) (tracing : Bool) :
    step tracing s = s := by
  unfold step
  split
  · contradiction
  · rfl

theorem iterate_stopped {tracing : Bool} {s : State} {n m : Nat}
    (stopped : ((step tracing)^[n] s).status ≠ .running) (more : n ≤ m) :
    (step tracing)^[m] s = (step tracing)^[n] s := by
  obtain ⟨rest, rfl⟩ := Nat.exists_eq_add_of_le' more
  rw [Function.iterate_add_apply]
  exact Function.iterate_fixed (step_stopped stopped tracing) rest

/-- Of `n` transitions from `start`, the first `k` carry out an instruction, the rest do nothing. -/
structure Completes (tracing : Bool) (start : State) (n k : Nat) : Prop where
  bound : k ≤ n
  running : ∀ j < k, ((step tracing)^[j] start).status = .running
  sound : 0 < k → ∀ reason location, ((step tracing)^[k] start).status ≠ .faulted reason location
  stopped : k < n → ((step tracing)^[k] start).status ≠ .running

theorem Completes.of_stopped {tracing : Bool} {start : State} (stopped : start.status ≠ .running)
    (n : Nat) : Completes tracing start n 0 :=
  ⟨Nat.zero_le n, nofun, nofun, fun _ => stopped⟩

theorem Completes.succ {tracing : Bool} {start : State} {n k : Nat}
    (running : start.status = .running)
    (fine : ∀ reason location, (step tracing start).status ≠ .faulted reason location)
    (rest : Completes tracing (step tracing start) n k) :
    Completes tracing start (n + 1) (k + 1) := by
  refine ⟨Nat.succ_le_succ rest.bound, ?_, ?_,
    fun fewer => rest.stopped (Nat.lt_of_succ_lt_succ fewer)⟩
  · intro j below
    cases j with
    | zero => exact running
    | succ j => exact rest.running j (Nat.lt_of_succ_lt_succ below)
  · intro _
    cases k with
    | zero => exact fine
    | succ k => exact rest.sound (Nat.succ_pos k)

def Faults (tracing : Bool) (start : State) (n : Nat) (reason : Reason) (location : Nat) : Prop :=
  ∃ k < n, (∀ j ≤ k, ((step tracing)^[j] start).status = .running) ∧
    ((step tracing)^[k + 1] start).status = .faulted reason location

theorem Faults.status {tracing : Bool} {start : State} {n : Nat} {reason : Reason} {location : Nat}
    (faults : Faults tracing start n reason location) :
    ((step tracing)^[n] start).status = .faulted reason location := by
  obtain ⟨k, bound, -, raised⟩ := faults
  have stopped : ((step tracing)^[k + 1] start).status ≠ .running := by
    rw [raised]
    nofun
  rw [iterate_stopped stopped bound, raised]

theorem Faults.first {tracing : Bool} {start : State} {reason : Reason} {location : Nat}
    (running : start.status = .running)
    (raised : (step tracing start).status = .faulted reason location) (n : Nat) :
    Faults tracing start (n + 1) reason location := by
  refine ⟨0, Nat.succ_pos n, ?_, raised⟩
  intro j at_start
  rw [Nat.le_zero.mp at_start]
  exact running

theorem Faults.succ {tracing : Bool} {start : State} {n : Nat} {reason : Reason} {location : Nat}
    (running : start.status = .running)
    (rest : Faults tracing (step tracing start) n reason location) :
    Faults tracing start (n + 1) reason location := by
  obtain ⟨k, bound, before, raised⟩ := rest
  refine ⟨k + 1, Nat.succ_lt_succ bound, ?_, raised⟩
  intro j below
  cases j with
  | zero => exact running
  | succ j => exact before j (Nat.le_of_succ_le_succ below)

end DecimalMachine.Reference
