import DecimalMachine.Text.Record
import DecimalMachine.Word

/-!
Memory: a row of cells, each holding a word, seen as pages of a hundred cells.

A machine starts with ten thousand cells. A restored memory may have another number of them, and
reading, writing and paging look at the cells that are there; `index` and the room for a block look
at the nominal capacity.
-/

namespace DecimalMachine

structure Memory where
  cells : Array Word
  deriving DecidableEq

inductive MemoryError where
  | addressOutOfRange (address : Int64)
  | pageOutOfRange (page : UInt64)
  | programTooLarge (size available : Nat)
  deriving DecidableEq

def MemoryError.message : MemoryError → String
  | .addressOutOfRange address => s!"memory address {address.toInt} out of range (0-9999)"
  | .pageOutOfRange page => s!"page {page.toNat} out of range (0-99)"
  | .programTooLarge size available => s!"program size {size} exceeds available space {available}"

inductive Placement (α : Type) where
  | placed (target : α)
  | refused (error : MemoryError)
  /-- The block has room in the nominal capacity but not in the cells that are there. -/
  | aborted

def Placement.map {α β : Type} (f : α → β) : Placement α → Placement β
  | .placed target => .placed (f target)
  | .refused error => .refused error
  | .aborted => .aborted

namespace Memory

def capacity : Nat := 10000

def pageSize : Nat := 100

def pageCount : Nat := 100

def blank : Memory := ⟨Array.replicate capacity Word.zero⟩

def read (m : Memory) (address : UInt64) : Except MemoryError Word :=
  match m.cells[address.toNat]? with
  | some w => .ok w
  | none => .error (.addressOutOfRange address.toInt64)

def contains (m : Memory) (address : UInt64) : Bool := address.toNat < m.cells.size

/-- The memory with one cell replaced; an address without a cell changes nothing. -/
def set (m : Memory) (address : UInt64) (w : Word) : Memory :=
  ⟨m.cells.setIfInBounds address.toNat w⟩

def write (m : Memory) (address : UInt64) (w : Word) : Except MemoryError Memory :=
  if m.contains address then .ok (m.set address w)
  else .error (.addressOutOfRange address.toInt64)

theorem size_set (m : Memory) (address : UInt64) (w : Word) :
    (m.set address w).cells.size = m.cells.size := Array.size_setIfInBounds

theorem contains_iff {m : Memory} {address : UInt64} :
    m.contains address ↔ address.toNat < m.cells.size := decide_eq_true_iff

theorem contains_blank {address : UInt64} (inside : address.toNat < capacity) :
    blank.contains address := by
  rw [contains_iff, blank, Array.size_replicate]
  exact inside

theorem read_eq_ok_iff {m : Memory} {address : UInt64} {w : Word} :
    m.read address = .ok w ↔ m.cells[address.toNat]? = some w := by
  unfold read
  cases m.cells[address.toNat]? <;> simp

theorem read_of_lt {m : Memory} {address : UInt64} (inside : address.toNat < m.cells.size) :
    m.read address = .ok m.cells[address.toNat] :=
  read_eq_ok_iff.mpr (Array.getElem?_eq_getElem inside)

theorem contains_of_read {m : Memory} {address : UInt64} {w : Word}
    (found : m.read address = .ok w) : m.contains address :=
  contains_iff.mpr (Array.getElem?_eq_some_iff.mp (read_eq_ok_iff.mp found)).1

theorem contains_set (m : Memory) (address other : UInt64) (w : Word) :
    (m.set address w).contains other = m.contains other := by
  simp only [contains, size_set]

theorem read_set_self {m : Memory} {address : UInt64} (h : m.contains address) (w : Word) :
    (m.set address w).read address = .ok w := by
  have bound := contains_iff.mp h
  simp [read, set, bound]

theorem read_set_of_ne {m : Memory} {address other : UInt64} (h : other ≠ address) (w : Word) :
    (m.set address w).read other = m.read other := by
  have apart : address.toNat ≠ other.toNat := fun same => h (UInt64.toNat_inj.mp same.symm)
  simp [read, set, Array.getElem?_setIfInBounds_ne apart]

def index (address : Int64) : Except MemoryError UInt64 :=
  if 0 ≤ address.toInt ∧ address.toInt < capacity then .ok address.toUInt64
  else .error (.addressOutOfRange address)

def overlay (cells : Array Word) : Nat → List Word → Array Word
  | _, [] => cells
  | start, w :: ws => overlay (cells.setIfInBounds start w) (start + 1) ws

theorem size_overlay (cells : Array Word) (start : Nat) (block : List Word) :
    (overlay cells start block).size = cells.size := by
  induction block generalizing cells start with
  | nil => rfl
  | cons w ws ih => rw [overlay, ih, Array.size_setIfInBounds]

theorem getElem?_overlay (cells : Array Word) {start : Nat} {block : List Word}
    (fits : start + block.length ≤ cells.size) (address : Nat) :
    (overlay cells start block)[address]? =
      if start ≤ address ∧ address < start + block.length then block[address - start]?
      else cells[address]? := by
  induction block generalizing cells start with
  | nil => rw [overlay, if_neg (by simp only [List.length_nil]; omega)]
  | cons w ws ih =>
    rw [List.length_cons] at fits
    have inside : start < cells.size := by omega
    rw [overlay, ih _ (by rw [Array.size_setIfInBounds]; omega), Array.getElem?_setIfInBounds]
    by_cases here : start = address
    · subst here
      rw [if_neg (by omega), if_pos rfl, if_pos inside,
        if_pos (by simp only [List.length_cons]; omega), Nat.sub_self, List.getElem?_cons_zero]
    · by_cases later : start + 1 ≤ address ∧ address < start + 1 + ws.length
      · obtain ⟨k, rfl⟩ := Nat.exists_eq_add_of_le later.1
        have next : start + 1 + k - start = k + 1 := by omega
        rw [if_pos later, if_pos (by simp only [List.length_cons]; omega), next,
          List.getElem?_cons_succ, Nat.add_sub_cancel_left]
      · rw [if_neg later, if_neg here, if_neg (by simp only [List.length_cons]; omega)]

def place (m : Memory) (start : UInt64) (block : List Word) : Placement Memory :=
  let available := capacity - start.toNat
  if available < block.length then .refused (.programTooLarge block.length available)
  else if m.cells.size < start.toNat + block.length then .aborted
  else .placed ⟨overlay m.cells start.toNat block⟩

def page (m : Memory) (number : UInt64) : Except MemoryError (List Word) :=
  let start := number.toNat * pageSize
  if start + pageSize ≤ m.cells.size then .ok (m.cells.extract start (start + pageSize)).toList
  else .error (.pageOutOfRange number)

def describe (m : Memory) : String :=
  let used := m.cells.countP fun w => !w.isZero
  Text.record "Memory" [("non_zero_cells", toString used), ("total_cells", toString capacity)]

end Memory

end DecimalMachine
