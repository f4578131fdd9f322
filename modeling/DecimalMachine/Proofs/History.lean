import DecimalMachine.Proofs.Cells
import DecimalMachine.Proofs.Placement

/-!
What the cells of a memory tell of its history.

Words are written and blocks are placed in a blank memory, in any order. A cell holds the word that
was stored in it last, by a request that was granted; the refused ones leave no trace. Single cells,
pages and signed addresses are views of the same cells.
-/

namespace DecimalMachine.Memory

inductive Request where
  | write (address : UInt64) (w : Word)
  | place (start : UInt64) (block : List Word)

namespace Request

/-- A block is to begin in memory, or right behind it. -/
def BeginsInside : Request → Prop
  | .write _ _ => True
  | .place start _ => start.toNat ≤ 10000

def fits : Request → Bool
  | .write address _ => address.toNat < 10000
  | .place start block => start.toNat + block.length ≤ 10000

def stored (cell : Nat) : Request → Option Word
  | .write address w => if address.toNat = cell then some w else none
  | .place start block => if start.toNat ≤ cell then block[cell - start.toNat]? else none

end Request

def answer (m : Memory) : Request → Placement Memory
  | .write address w =>
    match m.write address w with
    | .ok after => .placed after
    | .error e => .refused e
  | .place start block => m.place start block

/-- Requests one after another, those of them that were granted, and the memory that they leave. A
refused request leaves memory as it was. -/
inductive History : Memory → List Request → List Request → Memory → Prop where
  | none (m : Memory) : History m [] [] m
  | granted {m middle after : Memory} {request : Request} {later granted : List Request}
      (placed : m.answer request = .placed middle) (rest : History middle later granted after) :
      History m (request :: later) (request :: granted) after
  | refused {m after : Memory} {request : Request} {later granted : List Request} {e : MemoryError}
      (refused : m.answer request = .refused e) (rest : History m later granted after) :
      History m (request :: later) granted after

/-- The word that was last stored in this cell. -/
def lastStored (granted : List Request) (cell : Nat) : Option Word :=
  granted.reverse.findSome? (Request.stored cell)

theorem lastStored_cons (request : Request) (later : List Request) (cell : Nat) :
    lastStored (request :: later) cell = (lastStored later cell).or (request.stored cell) := by
  rw [lastStored, List.reverse_cons, List.findSome?_append]
  simp [lastStored]

variable {m after : Memory} {request : Request} {requests granted : List Request}

/-! ### One request -/

theorem answer_of_fits (whole : m.cells.size = 10000) (fits : request.fits) :
    ∃ after, m.answer request = .placed after := by
  cases request with
  | write address w =>
    simp only [Request.fits, decide_eq_true_eq] at fits
    have written : m.write address w = .ok (m.set address w) :=
      write_eq_ok_iff.mpr ⟨whole.symm ▸ fits, rfl⟩
    exact ⟨m.set address w, by simp only [answer, written]⟩
  | place start block =>
    simp only [Request.fits, decide_eq_true_eq] at fits
    obtain ⟨after, placed, -⟩ := place_of_fits whole fits
    exact ⟨after, placed⟩

theorem answer_of_not_fits (whole : m.cells.size = 10000) (inside : request.BeginsInside)
    (unfit : request.fits = false) : ∃ e, m.answer request = .refused e := by
  cases request with
  | write address w =>
    simp only [Request.fits, decide_eq_false_iff_not, Nat.not_lt] at unfit
    have refused : m.write address w = .error (.addressOutOfRange address.toInt64) :=
      write_eq_error_iff.mpr ⟨whole.symm ▸ unfit, rfl⟩
    exact ⟨_, by simp only [answer, refused]; rfl⟩
  | place start block =>
    simp only [Request.fits, decide_eq_false_iff_not, Nat.not_le] at unfit
    simp only [Request.BeginsInside] at inside
    refine ⟨_, place_eq_refused_iff.mpr ⟨?_, rfl⟩⟩
    simp only [capacity]
    omega

theorem cell_set (m : Memory) (address : UInt64) (w : Word) {cell : Nat}
    (inside : cell < m.cells.size) :
    (m.set address w).cells[cell]? = if address.toNat = cell then some w else m.cells[cell]? := by
  rw [set, Array.getElem?_setIfInBounds]
  by_cases here : address.toNat = cell
  · rw [if_pos here, if_pos here, if_pos (here ▸ inside)]
  · rw [if_neg here, if_neg here]

theorem Holds.cell {start : UInt64} {block : List Word} (holds : m.Holds start block after)
    (cell : Nat) :
    after.cells[cell]? = ((Request.place start block).stored cell).or m.cells[cell]? := by
  by_cases behind : start.toNat ≤ cell
  · obtain ⟨k, rfl⟩ := Nat.exists_eq_add_of_le behind
    rw [Request.stored, if_pos behind, Nat.add_sub_cancel_left]
    by_cases covered : k < block.length
    · rw [holds.inside k covered, List.getElem?_eq_getElem covered, Option.some_or]
    · rw [holds.outside _ (.inr (by omega)), List.getElem?_eq_none (Nat.le_of_not_lt covered),
        Option.none_or]
  · rw [Request.stored, if_neg behind, holds.outside cell (.inl (Nat.lt_of_not_le behind)),
      Option.none_or]

theorem answer_placed (placed : m.answer request = .placed after) :
    after.cells.size = m.cells.size ∧
      ∀ cell < m.cells.size, after.cells[cell]? = (request.stored cell).or m.cells[cell]? := by
  cases request with
  | write address w =>
    simp only [answer] at placed
    split at placed
    · rename_i written
      cases placed
      obtain ⟨-, rfl⟩ := write_eq_ok_iff.mp written
      refine ⟨size_set m address w, ?_⟩
      intro cell inside
      rw [m.cell_set address w inside, Request.stored]
      split <;> rfl
    · cases placed
  | place start block =>
    have holds := (place_eq_placed_iff.mp placed).2.2
    exact ⟨holds.size, fun cell _ => holds.cell cell⟩

/-! ### Requests in a row -/

namespace History

theorem cells (history : History m requests granted after) :
    after.cells.size = m.cells.size ∧
      ∀ cell < m.cells.size, after.cells[cell]? = (lastStored granted cell).or m.cells[cell]? := by
  induction history with
  | none m => exact ⟨rfl, fun cell _ => rfl⟩
  | @granted m middle after request later granted placed rest ih =>
    obtain ⟨size, cells⟩ := answer_placed placed
    refine ⟨ih.1.trans size, ?_⟩
    intro cell inside
    rw [ih.2 cell (size.symm ▸ inside), cells cell inside, lastStored_cons, Option.or_assoc]
  | refused refused rest ih => exact ih

theorem granted_eq (history : History m requests granted after) (whole : m.cells.size = 10000)
    (inside : ∀ r ∈ requests, r.BeginsInside) : granted = requests.filter Request.fits := by
  induction history with
  | none => rfl
  | @granted m middle after request later granted placed rest ih =>
    obtain ⟨here, behind⟩ := List.forall_mem_cons.mp inside
    have fits : request.fits = true := by
      cases unfit : request.fits with
      | true => rfl
      | false =>
        obtain ⟨e, refused⟩ := answer_of_not_fits whole here unfit
        cases refused.symm.trans placed
    rw [List.filter_cons_of_pos fits, ih ((answer_placed placed).1.trans whole) behind]
  | @refused m after request later granted e refused rest ih =>
    obtain ⟨here, behind⟩ := List.forall_mem_cons.mp inside
    have unfit : ¬ request.fits = true := by
      intro fits
      obtain ⟨after', placed⟩ := answer_of_fits whole fits
      cases refused.symm.trans placed
    rw [List.filter_cons_of_neg unfit, ih whole behind]

theorem exists_of_inside (whole : m.cells.size = 10000)
    (inside : ∀ r ∈ requests, r.BeginsInside) :
    ∃ granted after, History m requests granted after := by
  induction requests generalizing m with
  | nil => exact ⟨[], m, .none m⟩
  | cons request later ih =>
    obtain ⟨here, behind⟩ := List.forall_mem_cons.mp inside
    cases fits : request.fits with
    | true =>
      obtain ⟨middle, placed⟩ := answer_of_fits whole fits
      obtain ⟨granted, after, rest⟩ := ih ((answer_placed placed).1.trans whole) behind
      exact ⟨_, after, .granted placed rest⟩
    | false =>
      obtain ⟨e, refused⟩ := answer_of_not_fits whole here fits
      obtain ⟨granted, after, rest⟩ := ih whole behind
      exact ⟨granted, after, .refused refused rest⟩

end History

/-! ### The views of a memory -/

/-- Single cells, pages and signed addresses show the same ten thousand cells. -/
structure Views (m : Memory) : Prop where
  unreadable : ∀ address e, m.read address = .error e ↔
    10000 ≤ address.toNat ∧ e = .addressOutOfRange address.toInt64
  unwritable : ∀ address w e, m.write address w = .error e ↔
    10000 ≤ address.toNat ∧ e = .addressOutOfRange address.toInt64
  pages : ∀ number, (∃ words, m.page number = .ok words) ↔ number.toNat < 100
  entries : ∀ number words, m.page number = .ok words → words.length = 100 ∧
    ∀ k < 100, ∀ address : UInt64, address.toNat = 100 * number.toNat + k →
      ∃ w, words[k]? = some w ∧ m.read address = .ok w
  signed : ∀ (signed : Int64) (address : UInt64), index signed = .ok address ↔
    (address.toNat : Int) = signed.toInt ∧ ∃ w, m.read address = .ok w

theorem views_of_whole (whole : m.cells.size = 10000) : m.Views where
  unreadable := fun address e => by rw [read_eq_error_iff, whole]
  unwritable := fun address w e => by rw [write_eq_error_iff, whole]
  pages := by
    intro number
    constructor
    · rintro ⟨words, found⟩
      have bound := (page_eq_ok_iff.mp found).1
      omega
    · intro few
      have bound : 100 * number.toNat + 100 ≤ m.cells.size := by omega
      obtain ⟨words, found, -⟩ := page_of_whole bound
      exact ⟨words, found⟩
  entries := by
    intro number words found
    obtain ⟨bound, length, cells⟩ := page_eq_ok_iff.mp found
    refine ⟨length, ?_⟩
    intro k inside address place
    have here := read_of_lt (show address.toNat < m.cells.size by omega)
    exact ⟨_, by rw [cells k inside, ← place]; exact read_eq_ok_iff.mp here, here⟩
  signed := by
    intro signed address
    rw [index_eq_ok_iff]
    constructor
    · rintro ⟨small, same⟩
      exact ⟨same, _, read_of_lt (whole.symm ▸ small)⟩
    · rintro ⟨same, w, found⟩
      have inside := contains_iff.mp (contains_of_read found)
      exact ⟨by omega, same⟩

/-- Requests to a blank memory, of blocks that begin inside it or right behind it, are granted or
refused, those being granted that have a cell for every word. What is read at an address is the word
that was last stored there, or zero; and at all addresses from ten thousand on, reading and writing
fail. The pages and the signed addresses are views of the same cells. -/
theorem last_stored_is_read (requests : List Request) (inside : ∀ r ∈ requests, r.BeginsInside) :
    (∃ granted m, History blank requests granted m) ∧
    ∀ granted m, History blank requests granted m → granted = requests.filter Request.fits ∧
      (∀ address : UInt64, address.toNat < 10000 →
        m.read address = .ok ((lastStored granted address.toNat).getD .zero)) ∧
      m.Views := by
  have whole : blank.cells.size = 10000 := Array.size_replicate
  refine ⟨History.exists_of_inside whole inside, ?_⟩
  intro granted m history
  obtain ⟨size, cells⟩ := history.cells
  refine ⟨history.granted_eq whole inside, ?_, views_of_whole (size.trans whole)⟩
  intro address small
  have zero : blank.cells[address.toNat]? = some .zero := by
    rw [blank, Array.getElem?_replicate, capacity, if_pos small]
  rw [read_eq_ok_iff, cells address.toNat (whole.symm ▸ small), zero]
  cases lastStored granted address.toNat <;> rfl

-- A word, a block over it, and two requests that go beyond the last cell.
def overlaid : List Request :=
  [.write 5 (.ofInt 7), .place 4 [.ofInt 1, .ofInt 2], .write 10000 (.ofInt 9),
    .place 9999 [.ofInt 3, .ofInt 4]]

theorem last_stored_is_read_overlaid :
    (∀ r ∈ overlaid, r.BeginsInside) ∧ ∃ granted m, History blank overlaid granted m ∧
      granted = [.write 5 (.ofInt 7), .place 4 [.ofInt 1, .ofInt 2]] ∧
      m.read 5 = .ok (.ofInt 2) ∧ m.read 9999 = .ok .zero ∧
      m.read 10000 = .error (.addressOutOfRange 10000) := by
  have inside : ∀ r ∈ overlaid, r.BeginsInside := by
    simp only [overlaid, List.forall_mem_cons, Request.BeginsInside]
    exact ⟨trivial, by decide, trivial, by decide, List.forall_mem_nil _⟩
  obtain ⟨⟨granted, m, history⟩, told⟩ := last_stored_is_read overlaid inside
  obtain ⟨kept, read, views⟩ := told granted m history
  have first : granted = [.write 5 (.ofInt 7), .place 4 [.ofInt 1, .ofInt 2]] := kept
  rw [first] at read
  exact ⟨inside, granted, m, history, first, read 5 (by decide), read 9999 (by decide),
    (views.unreadable 10000 _).mpr ⟨by decide, rfl⟩⟩

end DecimalMachine.Memory
