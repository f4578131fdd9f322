import DecimalMachine.Proofs.Cells
import DecimalMachine.Proofs.Reference
import DecimalMachine.Step

/-!
The machine seen as the machine of the instruction table.

`view` forgets how numbers are kept. Each change and each part of a plan has a lemma that says where
the machine goes from there, in the terms of the table.
-/

namespace DecimalMachine

def Fault.reason : Fault → Reference.Reason
  | .unknownOpcode code _ => .unknownOpcode code.toNat
  | .outOfRange address _ => .outOfRange address.toInt
  | .divisionByZero _ => .divisionByZero
  | .accumulatorOverflow value _ => .accumulatorOverflow value.toInt
  | .invalidInput value _ => .invalidInput value.toInt
  | .inputExhausted _ => .inputExhausted

def State.status : State → Reference.Status
  | .running => .running
  | .halted first last => .halted first.toNat last.toNat
  | .faulted fault => .faulted fault.reason fault.location.toNat

namespace Machine

/-- All cells of the nominal memory are there, and the counter is at one of them. -/
structure Whole (m : Machine) : Prop where
  size : m.memory.cells.size = 10000
  counter : m.registers.counter.toNat < 10000

def cell (m : Machine) (address : Reference.Address) : Int :=
  (m.memory.cells.getD address Word.zero).value

def view (m : Machine) (unread : List Int64) (output : String) : Reference.State where
  cells := m.cell
  accumulator := m.registers.accumulator.value
  index := m.registers.index
  counter := Reference.address m.registers.counter.toNat
  status := m.state.status
  unread := unread.map Int64.toInt
  output := output

def settle (m : Machine) : Except Fault Change → Machine
  | .error fault => { m with state := .faulted fault }
  | .ok change => m.commit change

theorem cell_of_read {m : Machine} {address : UInt64} {w : Word}
    (found : m.memory.read address = .ok w) (inside : address.toNat < 10000) :
    m.cell ⟨address.toNat, inside⟩ = w.value := by
  have here := Memory.read_eq_ok_iff.mp found
  simp only [cell, Array.getD_eq_getD_getElem?, here, Option.getD_some]

theorem counter_val {m : Machine} (whole : m.Whole) :
    (Reference.address m.registers.counter.toNat).val = m.registers.counter.toNat :=
  Nat.mod_eq_of_lt whole.counter

theorem onPage_jump (r : Registers) (target : UInt64) :
    Reference.address (r.jump target).counter.toNat = Reference.onPage target.toNat := by
  unfold Registers.jump Reference.onPage Memory.pageSize
  by_cases first_page : target.toNat < 100
  · rw [dif_pos first_page, if_pos first_page]
    exact Fin.ext (Nat.mod_eq_of_lt (Nat.lt_trans first_page (by decide)))
  · rw [dif_neg first_page, if_neg first_page]
    rfl

variable {m : Machine} {unread : List Int64} {output : String}

theorem contains_of_lt (size : m.memory.cells.size = 10000) {address : UInt64}
    (inside : address.toNat < 10000) : m.memory.contains address :=
  Memory.contains_iff.mpr (size.symm ▸ inside)

theorem storing_of_lt (size : m.memory.cells.size = 10000) {address : UInt64}
    (inside : address.toNat < 10000) (w : Word) : m.storing address w = .ok (.store address w) :=
  if_pos (contains_of_lt size inside)

/-! ### Where a change or a fault leads -/

theorem onPage_advance (whole : m.Whole) (r : Registers) (same : r.counter = m.registers.counter) :
    Reference.address r.advance.counter.toNat =
      Reference.onPage ((Reference.address m.registers.counter.toNat).val + 1) := by
  rw [Registers.advance, onPage_jump, same, Registers.next_toNat whole.counter, counter_val whole]

theorem view_fault (whole : m.Whole) {fault : Fault} (here : fault.location = m.location) :
    (m.settle (.error fault)).view unread output = (m.view unread output).fault fault.reason := by
  simp only [settle, view, Reference.State.fault, State.status, here, counter_val whole]
  rfl

theorem view_accumulate (whole : m.Whole) (w : Word) :
    (m.settle (.ok (.accumulate w))).view unread output = (m.view unread output).assign w.value :=
  congrArg (fun counter => { m.view unread output with accumulator := w.value, counter })
    (onPage_advance whole _ rfl)

theorem view_setIndex (whole : m.Whole) (value : Int32) :
    (m.settle (.ok (.setIndex value))).view unread output = (m.view unread output).setIndex value :=
  congrArg (fun counter => { m.view unread output with index := value, counter })
    (onPage_advance whole _ rfl)

theorem view_swapIn (whole : m.Whole) (w : Word) :
    (m.settle (.ok (.exchange w m.registers.accumulator.toIndex))).view unread output =
      (m.view unread output).swapIn w.value :=
  congrArg (fun counter => { m.view unread output with
    accumulator := w.value
    index := m.registers.accumulator.toIndex
    counter }) (onPage_advance whole _ rfl)

theorem view_nothing (whole : m.Whole) :
    (m.settle (.ok .nothing)).view unread output = (m.view unread output).advance :=
  congrArg (fun counter => { m.view unread output with counter })
    (onPage_advance whole _ rfl)

theorem view_store (whole : m.Whole) {address : UInt64} (inside : address.toNat < 10000)
    (w : Word) :
    (m.settle (.ok (.store address w))).view unread output =
      (m.view unread output).store ⟨address.toNat, inside⟩ w.value := by
  have cells : (m.settle (.ok (.store address w))).cell =
      Function.update m.cell ⟨address.toNat, inside⟩ w.value := by
    funext other
    by_cases same : other = ⟨address.toNat, inside⟩
    · subst same
      rw [Function.update_self]
      exact cell_of_read
        (Memory.read_set_self (contains_of_lt whole.size inside) w) inside
    · have apart : address.toNat ≠ other.val := fun here => same (Fin.ext here.symm)
      rw [Function.update_of_ne same]
      simp only [cell, settle, commit, Memory.set, Array.getD_eq_getD_getElem?,
        Array.getElem?_setIfInBounds_ne apart]
  unfold view Reference.State.store Reference.State.advance Reference.State.jump
  rw [cells]
  exact congrArg (fun counter => { m.view unread output with
    cells := Function.update m.cell ⟨address.toNat, inside⟩ w.value, counter })
    (onPage_advance whole _ rfl)

theorem view_jump (target : UInt64) :
    (m.settle (.ok (.jump target))).view unread output =
      (m.view unread output).jump target.toNat :=
  congrArg (fun counter => { m.view unread output with counter }) (onPage_jump m.registers target)

theorem view_halt (i : Instruction) :
    (m.settle (.ok (.halt i.haltPages.1 i.haltPages.2))).view unread output =
      (m.view unread output).halt i.operand.toNat := by
  unfold Reference.State.halt
  rw [← i.haltPages_toNat.1, ← i.haltPages_toNat.2]
  rfl

/-! ### Where a part of a plan leads -/

theorem toInt_overflow {value : Int} (lower : -999998000001 ≤ value)
    (upper : value ≤ 999998000001) :
    (Int64.ofInt value).toInt = value :=
  Int64.toInt_ofInt_of_le (by omega) (by omega)

theorem toInt_index (r : Registers) : (Int64.ofInt r.index.toInt).toInt = r.index.toInt := by
  have := r.index.le_toInt
  have := r.index.toInt_lt
  exact toInt_overflow (by omega) (by omega)

theorem ofInt?_of_isWord {value : Int} (inside : Reference.isWord value) :
    Word.ofInt? value = some ⟨value, inside.1, inside.2⟩ := dif_pos inside

theorem ofInt?_of_not_isWord {value : Int} (outside : ¬ Reference.isWord value) :
    Word.ofInt? value = none := dif_neg outside

theorem view_result (whole : m.Whole) {value : Int} (fits : (Int64.ofInt value).toInt = value)
    (f : Word → Change) (next : Int → Reference.State)
    (each : ∀ w, (m.settle (.ok (f w))).view unread output = next w.value) :
    (m.settle ((m.result value).map f)).view unread output =
      if Reference.isWord value then next value
      else (m.view unread output).fault (.accumulatorOverflow value) := by
  unfold result
  by_cases inside : Reference.isWord value
  · rw [if_pos inside, ofInt?_of_isWord inside]
    exact each _
  · rw [if_neg inside, ofInt?_of_not_isWord inside]
    have overflow : (m.settle (.error (.accumulatorOverflow (Int64.ofInt value) m.location))).view
        unread output = _ := view_fault whole rfl
    rw [Fault.reason, fits] at overflow
    exact overflow

theorem read_of_lt (whole : m.Whole) {address : UInt64} (inside : address.toNat < 10000) :
    ∃ w, m.memory.read address = .ok w ∧ w.value = m.cell ⟨address.toNat, inside⟩ := by
  have found := Memory.read_of_lt (m := m.memory) (whole.size.symm ▸ inside)
  exact ⟨_, found, (cell_of_read found inside).symm⟩

theorem view_wordAt (whole : m.Whole) {address : UInt64} (inside : address.toNat < 10000)
    (f : Word → Except Fault Change) (next : Int → Reference.State)
    (each : ∀ w, (m.settle (f w)).view unread output = next w.value) :
    (m.settle ((m.wordAt address).bind f)).view unread output =
      next (m.cell ⟨address.toNat, inside⟩) := by
  obtain ⟨w, found, value⟩ := read_of_lt whole inside
  rw [wordAt, found, ← value]
  exact each w

theorem view_storing (whole : m.Whole) {address : UInt64} (inside : address.toNat < 10000)
    (w : Word) :
    (m.settle (m.storing address w)).view unread output =
      (m.view unread output).store ⟨address.toNat, inside⟩ w.value := by
  rw [storing_of_lt whole.size inside]
  exact view_store whole inside w

theorem view_indexed (whole : m.Whole) {i : Instruction} (indexed : i.opcode.isIndexed = true)
    (f : UInt64 → Except Fault Change) (next : Reference.Address → Reference.State)
    (each : ∀ address inside,
      (m.settle (f address)).view unread output = next ⟨address.toNat, inside⟩) :
    (m.settle ((m.effectiveAddress i).bind f)).view unread output =
      (m.view unread output).indexed next := by
  have signed := m.registers.indexAddress_toInt
  unfold effectiveAddress
  rw [if_pos indexed]
  by_cases inside : 0 ≤ m.registers.index.toInt ∧ m.registers.index.toInt < 10000
  · obtain ⟨given, unsigned⟩ := Memory.index_of_inside (signed.symm ▸ inside)
    rw [signed] at unsigned
    have there : m.registers.indexAddress.toUInt64.toNat < 10000 := by omega
    rw [given, Reference.State.indexed_of_inside inside]
    exact (each _ there).trans (congrArg next (Fin.ext unsigned))
  · have refused := Memory.index_of_outside (signed.symm ▸ inside)
    have fault : (m.settle (.error (.outOfRange m.registers.indexAddress m.location))).view
        unread output = _ := view_fault whole rfl
    rw [Fault.reason, signed] at fault
    rw [refused, Reference.State.indexed_of_outside inside]
    exact fault

end Machine

end DecimalMachine
