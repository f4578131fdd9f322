import DecimalMachine.Proofs.FailedStep

/-!
Placing a block of words in memory, and loading a program.

There are three ways for it to end, and `Places` says when each of them comes about. A block is
placed as a whole or not at all. Whether there is room for it is decided by the nominal capacity,
and whether it can be put there by the cells that there are. The two disagree for an empty block
behind the end, and for a memory that was restored with fewer cells.
-/

namespace DecimalMachine.Memory

/-- The cells from `start` on hold the block, and all others are as they were. -/
structure Holds (before : Memory) (start : UInt64) (block : List Word) (after : Memory) : Prop where
  size : after.cells.size = before.cells.size
  inside : ∀ k < block.length, after.cells[start.toNat + k]? = block[k]?
  outside : ∀ address, address < start.toNat ∨ start.toNat + block.length ≤ address →
    after.cells[address]? = before.cells[address]?

variable {m : Memory} {start : UInt64} {block : List Word}

theorem Holds.overlay (fits : start.toNat + block.length ≤ m.cells.size) :
    m.Holds start block ⟨overlay m.cells start.toNat block⟩ := by
  have cell := getElem?_overlay m.cells fits
  constructor
  · exact size_overlay m.cells start.toNat block
  · intro k bound
    have here : start.toNat ≤ start.toNat + k ∧ start.toNat + k < start.toNat + block.length := by
      omega
    simp only [cell, if_pos here, Nat.add_sub_cancel_left]
  · intro address apart
    have away : ¬ (start.toNat ≤ address ∧ address < start.toNat + block.length) := by omega
    simp only [cell, if_neg away]

theorem Holds.unique {after other : Memory} (holds : m.Holds start block after)
    (others : m.Holds start block other) : after = other := by
  have cells : after.cells = other.cells := by
    apply Array.ext_getElem?
    intro address
    by_cases apart : address < start.toNat ∨ start.toNat + block.length ≤ address
    · exact (holds.outside address apart).trans (others.outside address apart).symm
    · obtain ⟨k, rfl⟩ := Nat.exists_eq_add_of_le (show start.toNat ≤ address by omega)
      have bound : k < block.length := by omega
      exact (holds.inside k bound).trans (others.inside k bound).symm
  cases after
  cases other
  exact congrArg Memory.mk cells

inductive Places (m : Memory) (start : UInt64) (block : List Word) : Placement Memory → Prop where
  | placed {after : Memory} (room : block.length ≤ capacity - start.toNat)
      (fits : start.toNat + block.length ≤ m.cells.size) (holds : m.Holds start block after) :
      Places m start block (.placed after)
  | refused (crowded : capacity - start.toNat < block.length) :
      Places m start block (.refused (.programTooLarge block.length (capacity - start.toNat)))
  | aborted (room : block.length ≤ capacity - start.toNat)
      (short : m.cells.size < start.toNat + block.length) : Places m start block .aborted

theorem place_places (m : Memory) (start : UInt64) (block : List Word) :
    m.Places start block (m.place start block) := by
  by_cases crowded : capacity - start.toNat < block.length
  · simp only [place, if_pos crowded]
    exact .refused crowded
  · have room : block.length ≤ capacity - start.toNat := Nat.le_of_not_lt crowded
    by_cases short : m.cells.size < start.toNat + block.length
    · simp only [place, if_neg crowded, if_pos short]
      exact .aborted room short
    · have fits : start.toNat + block.length ≤ m.cells.size := Nat.le_of_not_lt short
      simp only [place, if_neg crowded, if_neg short]
      exact .placed room fits (.overlay fits)

theorem Places.unique {outcome other : Placement Memory} (places : m.Places start block outcome)
    (others : m.Places start block other) : outcome = other := by
  cases places with
  | placed room fits holds =>
    cases others with
    | placed _ _ holds' => exact congrArg Placement.placed (holds.unique holds')
    | refused crowded => omega
    | aborted _ short => omega
  | refused crowded =>
    cases others with
    | placed room | aborted room => omega
    | refused => rfl
  | aborted room short =>
    cases others with
    | placed _ fits => omega
    | refused crowded => omega
    | aborted => rfl

theorem place_eq_iff {outcome : Placement Memory} :
    m.place start block = outcome ↔ m.Places start block outcome := by
  constructor
  · rintro rfl
    exact m.place_places start block
  · exact (m.place_places start block).unique

theorem place_eq_placed_iff {after : Memory} :
    m.place start block = .placed after ↔ block.length ≤ capacity - start.toNat ∧
      start.toNat + block.length ≤ m.cells.size ∧ m.Holds start block after := by
  constructor
  · intro placed
    cases place_eq_iff.mp placed with
    | placed room fits holds => exact ⟨room, fits, holds⟩
  · rintro ⟨room, fits, holds⟩
    exact place_eq_iff.mpr (.placed room fits holds)

theorem place_eq_refused_iff {e : MemoryError} :
    m.place start block = .refused e ↔ capacity - start.toNat < block.length ∧
      e = .programTooLarge block.length (capacity - start.toNat) := by
  constructor
  · intro refused
    cases place_eq_iff.mp refused with
    | refused crowded => exact ⟨crowded, rfl⟩
  · rintro ⟨crowded, rfl⟩
    exact place_eq_iff.mpr (.refused crowded)

theorem place_eq_aborted_iff :
    m.place start block = .aborted ↔ block.length ≤ capacity - start.toNat ∧
      m.cells.size < start.toNat + block.length := by
  constructor
  · intro aborted
    cases place_eq_iff.mp aborted with
    | aborted room short => exact ⟨room, short⟩
  · rintro ⟨room, short⟩
    exact place_eq_iff.mpr (.aborted room short)

theorem place_of_fits (whole : m.cells.size = 10000) (fits : start.toNat + block.length ≤ 10000) :
    ∃ after, m.place start block = .placed after ∧ m.Holds start block after := by
  have room : block.length ≤ capacity - start.toNat := by
    unfold capacity
    omega
  have holds := Holds.overlay (whole.symm ▸ fits)
  exact ⟨_, place_eq_placed_iff.mpr ⟨room, by omega, holds⟩, holds⟩

/-- When a block is placed, refused or neither, and what a placed block leaves; a refused one leaves
no new memory. Where all cells are there, the block is placed exactly if it fits, and it is only an
empty block behind the end that is neither placed nor refused. -/
theorem placement_outcomes (m : Memory) (start : UInt64) (block : List Word) :
    (∀ after, m.place start block = .placed after ↔ block.length ≤ 10000 - start.toNat ∧
      start.toNat + block.length ≤ m.cells.size ∧ m.Holds start block after) ∧
    (∀ e, m.place start block = .refused e ↔ 10000 - start.toNat < block.length ∧
      e = .programTooLarge block.length (10000 - start.toNat)) ∧
    (m.place start block = .aborted ↔ block.length ≤ 10000 - start.toNat ∧
      m.cells.size < start.toNat + block.length) ∧
    (m.cells.size = 10000 →
      ((∃ after, m.place start block = .placed after) ↔ start.toNat + block.length ≤ 10000) ∧
      (m.place start block = .aborted ↔ block = [] ∧ 10000 < start.toNat)) := by
  refine ⟨fun _ => place_eq_placed_iff, fun _ => place_eq_refused_iff, place_eq_aborted_iff, ?_⟩
  intro whole
  constructor
  · constructor
    · rintro ⟨after, placed⟩
      have fits := (place_eq_placed_iff.mp placed).2.1
      omega
    · intro fits
      obtain ⟨after, placed, -⟩ := place_of_fits whole fits
      exact ⟨after, placed⟩
  · constructor
    · intro aborted
      obtain ⟨room, short⟩ := place_eq_aborted_iff.mp aborted
      unfold capacity at room
      exact ⟨List.length_eq_zero_iff.mp (by omega), by omega⟩
    · rintro ⟨rfl, behind⟩
      exact place_eq_aborted_iff.mpr ⟨Nat.zero_le _, by simp only [List.length_nil]; omega⟩

/-- An empty block behind the last cell, and a block that needs one cell more than there are, have
room in the nominal memory and cannot be put there. -/
theorem block_behind_the_cells_aborts :
    blank.cells.size = 10000 ∧ blank.place 10001 [] = .aborted ∧
      (Memory.mk #[.zero]).place 0 [.zero, .zero] = .aborted := by
  have whole : blank.cells.size = 10000 := Array.size_replicate
  have behind : (10001 : UInt64).toNat = 10001 := rfl
  have empty : blank.place 10001 [] = .aborted :=
    place_eq_aborted_iff.mpr ⟨Nat.zero_le _, by simp only [whole, behind]; decide⟩
  exact ⟨whole, empty, by rfl⟩

theorem placement_outcomes_at_the_end :
    blank.cells.size = 10000 ∧
    (∃ after, blank.place 9998 [.ofInt 7, .ofInt 8] = .placed after ∧
      after.cells[9999]? = some (.ofInt 8) ∧ after.cells[9997]? = some .zero) ∧
    blank.place 9998 [.zero, .zero, .zero] = .refused (.programTooLarge 3 2) := by
  have whole : blank.cells.size = 10000 := Array.size_replicate
  have start : (9998 : UInt64).toNat = 9998 := rfl
  have two := placement_outcomes blank 9998 [.ofInt 7, .ofInt 8]
  obtain ⟨after, placed⟩ := (two.2.2.2 whole).1.mpr (by decide)
  have holds := ((two.1 after).mp placed).2.2
  have last := holds.inside 1 (by decide)
  have before := holds.outside 9997 (.inl (by decide))
  have three := placement_outcomes blank 9998 [.zero, .zero, .zero]
  refine ⟨whole, ⟨after, placed, last, ?_⟩, (three.2.1 _).mpr ⟨by decide, rfl⟩⟩
  simpa [blank, capacity] using before

end DecimalMachine.Memory

namespace DecimalMachine.Machine

variable {m m' : Machine} {program : List Word}

theorem loadProgram_eq_placed_iff : m.loadProgram program = .placed m' ↔
    ∃ memory, m.memory.place 0 program = .placed memory ∧ m' = { m with memory } := by
  unfold loadProgram
  cases m.memory.place 0 program with
  | placed memory => simp [Placement.map, eq_comm]
  | refused | aborted => simp [Placement.map]

theorem loadProgram_eq_aborted_iff : m.loadProgram program = .aborted ↔
    m.memory.place 0 program = .aborted := by
  unfold loadProgram
  cases m.memory.place 0 program <;> simp [Placement.map]

theorem loadProgram_of_fits (whole : m.memory.cells.size = 10000) (fits : program.length ≤ 10000) :
    ∃ memory, m.loadProgram program = .placed { m with memory } ∧
      m.memory.Holds 0 program memory := by
  have behind : (0 : UInt64).toNat + program.length ≤ 10000 := by simpa using fits
  obtain ⟨memory, placed, holds⟩ := Memory.place_of_fits whole behind
  exact ⟨memory, loadProgram_eq_placed_iff.mpr ⟨memory, placed, rfl⟩, holds⟩

end DecimalMachine.Machine
