import DecimalMachine.Memory

/-!
The cells of a memory, and which of them can be reached: one by one, by a signed address, and by
pages.
-/

namespace DecimalMachine.Memory

variable {m after : Memory} {address : UInt64} {w : Word}

theorem read_eq_error_iff {e : MemoryError} : m.read address = .error e ↔
    m.cells.size ≤ address.toNat ∧ e = .addressOutOfRange address.toInt64 := by
  unfold read
  cases here : m.cells[address.toNat]? with
  | some w =>
    have inside := (Array.getElem?_eq_some_iff.mp here).1
    simp [Nat.not_le_of_lt inside]
  | none =>
    have outside := Array.getElem?_eq_none_iff.mp here
    simp [outside, eq_comm]

theorem write_eq_ok_iff :
    m.write address w = .ok after ↔ address.toNat < m.cells.size ∧ after = m.set address w := by
  unfold write
  by_cases inside : address.toNat < m.cells.size
  · simp [contains, inside, eq_comm]
  · simp [contains, inside]

theorem write_eq_error_iff {e : MemoryError} : m.write address w = .error e ↔
    m.cells.size ≤ address.toNat ∧ e = .addressOutOfRange address.toInt64 := by
  unfold write
  by_cases inside : address.toNat < m.cells.size
  · simp [contains, inside, Nat.not_le_of_lt inside]
  · simp [contains, inside, Nat.le_of_not_lt inside, eq_comm]

theorem index_of_inside {signed : Int64} (inside : 0 ≤ signed.toInt ∧ signed.toInt < 10000) :
    index signed = .ok signed.toUInt64 ∧ signed.toUInt64.toNat = signed.toInt.toNat :=
  ⟨if_pos inside, Int64.toNat_toUInt64_of_le (Int64.le_iff_toInt_le.mpr inside.1)⟩

theorem index_of_outside {signed : Int64} (outside : ¬ (0 ≤ signed.toInt ∧ signed.toInt < 10000)) :
    index signed = .error (.addressOutOfRange signed) :=
  if_neg outside

theorem index_eq_ok_iff {signed : Int64} : index signed = .ok address ↔
    address.toNat < 10000 ∧ (address.toNat : Int) = signed.toInt := by
  by_cases inside : 0 ≤ signed.toInt ∧ signed.toInt < 10000
  · obtain ⟨given, unsigned⟩ := index_of_inside inside
    rw [given, Except.ok.injEq, ← UInt64.toNat_inj]
    omega
  · rw [index_of_outside inside]
    constructor
    · nofun
    · rintro ⟨small, same⟩
      omega

variable {number : UInt64}

theorem page_of_whole (whole : 100 * number.toNat + 100 ≤ m.cells.size) :
    ∃ words, m.page number = .ok words ∧ words.length = 100 ∧
      ∀ k < 100, words[k]? = m.cells[100 * number.toNat + k]? := by
  have start : number.toNat * pageSize + pageSize ≤ m.cells.size := by
    simp only [pageSize]
    omega
  refine ⟨(m.cells.extract (number.toNat * pageSize) (number.toNat * pageSize + pageSize)).toList,
    if_pos start, ?_, ?_⟩
  · simp only [Array.length_toList, Array.size_extract, pageSize] at start ⊢
    omega
  · intro k bound
    have place : number.toNat * pageSize + k = 100 * number.toNat + k := by
      simp only [pageSize]
      omega
    rw [Array.getElem?_toList, Array.getElem?_extract, place, if_pos]
    simp only [pageSize] at start ⊢
    omega

theorem page_of_short (short : m.cells.size < 100 * number.toNat + 100) :
    m.page number = .error (.pageOutOfRange number) := by
  have start : ¬ number.toNat * pageSize + pageSize ≤ m.cells.size := by
    simp only [pageSize]
    omega
  exact if_neg start

theorem page_eq_ok_iff {words : List Word} : m.page number = .ok words ↔
    100 * number.toNat + 100 ≤ m.cells.size ∧ words.length = 100 ∧
      ∀ k < 100, words[k]? = m.cells[100 * number.toNat + k]? := by
  by_cases whole : 100 * number.toNat + 100 ≤ m.cells.size
  · obtain ⟨found, given, length, cells⟩ := page_of_whole whole
    rw [given, Except.ok.injEq]
    constructor
    · rintro rfl
      exact ⟨whole, length, cells⟩
    · rintro ⟨-, length', cells'⟩
      apply List.ext_getElem?
      intro k
      by_cases bound : k < 100
      · rw [cells k bound, cells' k bound]
      · rw [List.getElem?_eq_none (by omega), List.getElem?_eq_none (by omega)]
  · rw [page_of_short (Nat.lt_of_not_le whole)]
    constructor
    · nofun
    · rintro ⟨whole', -⟩
      exact absurd whole' whole

end DecimalMachine.Memory
