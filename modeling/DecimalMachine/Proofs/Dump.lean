import Mathlib.Data.List.Forall2
import Mathlib.Data.List.Sort
import DecimalMachine.Proofs.Cells
import DecimalMachine.Proofs.Mnemonics
import DecimalMachine.Proofs.Outcome
import DecimalMachine.Proofs.Shown
import DecimalMachine.Proofs.Texts

/-!
Reading a dump back.

`Machine.Dumped` says what the lines of a dump are, by what a reader finds in them: labels, and
numerals that stand for the registers and the cells. A reader of the same lines finds the same
values, so that a dump determines the registers that it shows, the pages that it has, and their
cells.
-/

namespace DecimalMachine

open Decimal (Numeral)

/-! ### What a reader finds in a line -/

def ReadsAs (token : String) (z : Int) : Prop := Decimal.integer? token.toList = some z

def Labelled (labels : List String) (z : Int) (line : String) : Prop :=
  ∃ numeral, Text.tokens line = labels ++ [numeral] ∧ ReadsAs numeral z

/-- The line is this row of the page: the number of its first cell, and ten cells. -/
def Memory.GridRow (m : Memory) (page row : Nat) (line : String) : Prop :=
  ∃ label numerals, Text.tokens line = label :: numerals ∧ ReadsAs label (10 * row) ∧
    numerals.length = 10 ∧ ∀ column < 10, ∃ numeral w, numerals[column]? = some numeral ∧
      m.cells[100 * page + 10 * row + column]? = some w ∧ ReadsAs numeral w.value

inductive Memory.PageBlock (m : Memory) (page : Nat) : List String → Prop where
  | lines {heading : String} {rows : List String} (headed : Labelled ["PAGE", "#"] page heading)
      (ten : rows.length = 10)
      (grid : ∀ row < 10, ∃ line, rows[row]? = some line ∧ m.GridRow page row line) :
      PageBlock m page (heading :: "" :: Memory.gridHeader :: rows ++ [""])

def Memory.Printed (m : Memory) (first last : UInt64) (page : Nat) : Prop :=
  first.toNat ≤ page ∧ page ≤ min last.toNat 99 ∧ 100 * page + 100 ≤ m.cells.size

namespace Machine

inductive RegisterBlock (m : Machine) : List String → Prop where
  | lines {accumulator counter instruction operation index : String}
      (accumulated : Labelled ["accumulator"] m.registers.accumulator.value accumulator)
      (counted : Labelled ["instructionCounter"] m.registers.counter.toNat counter)
      (instructed : Labelled ["instructionRegister"] m.registers.instruction.value instruction)
      (operated : Labelled ["operationCode"] m.registers.instruction.opcode.toNat operation)
      (indexed : Labelled ["indexRegister"] m.registers.index.toInt index) :
      RegisterBlock m ["", "REGISTERS:", accumulator, counter, instruction, operation, index, ""]

inductive Dumped (m : Machine) (first last : UInt64) : List String → Prop where
  | lines {registers : List String} {pages : List Nat} {blocks : List (List String)}
      (shown : m.RegisterBlock registers) (ascending : pages.Pairwise (· < ·))
      (printed : ∀ page, page ∈ pages ↔ m.memory.Printed first last page)
      (grids : List.Forall₂ m.memory.PageBlock pages blocks) :
      Dumped m first last (registers ++ "MEMORY:" :: blocks.flatten)

/-- The two machines have the same registers, and the same cells in the same printed pages. -/
structure ShownAlike (m n : Machine) (first last : UInt64) : Prop where
  accumulator : m.registers.accumulator = n.registers.accumulator
  counter : m.registers.counter = n.registers.counter
  instruction : m.registers.instruction = n.registers.instruction
  index : m.registers.index = n.registers.index
  pages : ∀ page, m.memory.Printed first last page ↔ n.memory.Printed first last page
  cells : ∀ page, m.memory.Printed first last page → ∀ k < 100,
    m.memory.cells[100 * page + k]? = n.memory.cells[100 * page + k]?

end Machine

/-! ### The tokens of a line -/

namespace Text

theorem tokens_blank_between (a b : String) : tokens (a ++ " " ++ b) = tokens a ++ tokens b := by
  have chars : (a ++ " " ++ b).toList = a.toList ++ ' ' :: b.toList := by simp
  rw [tokens, chars, tokenChars_append_blank _ (by decide), List.map_append]
  rfl

theorem tokens_numeral (form : Numeral) (z : Int) : tokens (form.write z) = [form.write z] := by
  have spelled := Decimal.spells_write form z
  rw [tokens, tokenChars_of_token spelled.ne_nil spelled.letters]
  simp

theorem tokens_padLeft (width : Nat) (text : String) :
    tokens (padLeft width text) = tokens text := by
  have blank : ∀ c ∈ List.replicate (width - text.length) ' ', isBlank c := by
    intro c mem
    rw [List.eq_of_mem_replicate mem]
    decide
  simp only [tokens, padLeft, blanks, String.toList_append, String.toList_ofList,
    tokenChars_blanks blank]

theorem tokens_columns (form : Numeral) (zs : List Int) :
    tokens (String.join (zs.map fun z => form.write z ++ " ")) = zs.map form.write := by
  induction zs with
  | nil => rfl
  | cons z zs ih =>
    have own : String.join ((z :: zs).map fun z => form.write z ++ " ") =
      form.write z ++ " " ++ String.join (zs.map fun z => form.write z ++ " ") := by simp
    rw [own, tokens_blank_between, tokens_numeral, ih]
    rfl

end Text

theorem readsAs_write (form : Numeral) (z : Int) : ReadsAs (form.write z) z :=
  Decimal.integer?_eq_some_iff.mpr (Decimal.spells_write form z)

theorem ReadsAs.unique {token : String} {y z : Int} (reads : ReadsAs token y)
    (others : ReadsAs token z) : y = z :=
  Option.some.inj (reads.symm.trans others)

theorem labelled_write {labels : List String} (front : String)
    (tokens : Text.tokens front = labels) (form : Numeral) (z : Int) :
    Labelled labels z (front ++ " " ++ form.write z) := by
  refine ⟨form.write z, ?_, readsAs_write form z⟩
  rw [Text.tokens_blank_between, tokens, Text.tokens_numeral]

theorem Labelled.unique {labels : List String} {y z : Int} {line : String}
    (labelled : Labelled labels y line) (others : Labelled labels z line) : y = z := by
  obtain ⟨numeral, tokens, reads⟩ := labelled
  obtain ⟨numeral', tokens', reads'⟩ := others
  obtain rfl : numeral = numeral' := by simpa using tokens.symm.trans tokens'
  exact reads.unique reads'

/-! ### The lines of a dump -/

namespace Memory

variable {m : Memory} {page : Nat} {words : List Word}

theorem number_toNat (few : page < 100) : (UInt64.ofNat page).toNat = page :=
  UInt64.toNat_ofNat_of_lt' (by simp only [UInt64.size]; omega)

theorem pageLines?_of_short (few : page < 100) (short : m.cells.size < 100 * page + 100) :
    m.pageLines? page = [] := by
  rw [← number_toNat few] at short
  simp only [pageLines?, page_of_short short]

theorem pageLines?_of_whole (few : page < 100) (whole : 100 * page + 100 ≤ m.cells.size) :
    ∃ words, m.pageLines? page = pageLines page words ∧ words.length = 100 ∧
      ∀ k < 100, words[k]? = m.cells[100 * page + k]? := by
  rw [← number_toNat few] at whole
  obtain ⟨words, found, length, cells⟩ := page_of_whole whole
  rw [number_toNat few] at cells
  exact ⟨words, by simp only [pageLines?, found], length, cells⟩

theorem gridRow_rowLine (length : words.length = 100)
    (cells : ∀ k < 100, words[k]? = m.cells[100 * page + k]?) {row : Nat} (bound : row < 10) :
    m.GridRow page row (rowLine words row) := by
  have tokens : Text.tokens (rowLine words row) = Numeral.plain.write (10 * row) ::
      (((words.drop (10 * row)).take 10).map Word.value).map cellNumeral.write := by
    have columns := Text.tokens_columns cellNumeral
      (((words.drop (10 * row)).take 10).map Word.value)
    rw [List.map_map] at columns
    rw [rowLine, Text.tokens_blank_between, rowLabel, Text.tokens_padLeft, Text.tokens_numeral]
    exact congrArg _ columns
  refine ⟨_, _, tokens, readsAs_write _ _, ?_, ?_⟩
  · simp only [List.length_map, List.length_take, List.length_drop, length]
    omega
  · intro column inside
    have within : 10 * row + column < words.length := by omega
    have word := cells (10 * row + column) (by omega)
    rw [List.getElem?_eq_getElem within, ← Nat.add_assoc] at word
    refine ⟨_, _, ?_, word.symm, readsAs_write cellNumeral _⟩
    simp only [List.getElem?_map, List.getElem?_take, if_pos inside, List.getElem?_drop,
      List.getElem?_eq_getElem within, Option.map_some]

theorem pageBlock_pageLines? (few : page < 100) (whole : 100 * page + 100 ≤ m.cells.size) :
    m.PageBlock page (m.pageLines? page) := by
  obtain ⟨words, lines, length, cells⟩ := pageLines?_of_whole few whole
  rw [lines, pageLines]
  apply PageBlock.lines
  · exact labelled_write "PAGE #" (by decide) pageNumeral page
  · simp
  · intro row bound
    exact ⟨rowLine words row, by simp [bound], gridRow_rowLine length cells bound⟩

theorem pageLines?_congr {n : Memory} {first last : UInt64} (printed : m.Printed first last page)
    (printed' : n.Printed first last page)
    (same : ∀ k < 100, m.cells[100 * page + k]? = n.cells[100 * page + k]?) :
    m.pageLines? page = n.pageLines? page := by
  have few : page < 100 := by
    have := printed.2.1
    omega
  obtain ⟨words, lines, length, cells⟩ := pageLines?_of_whole few printed.2.2
  obtain ⟨words', lines', length', cells'⟩ := pageLines?_of_whole few printed'.2.2
  have alike : words = words' := by
    apply List.ext_getElem?
    intro k
    by_cases bound : k < 100
    · rw [cells k bound, cells' k bound, same k bound]
    · rw [List.getElem?_eq_none (by omega), List.getElem?_eq_none (by omega)]
  rw [lines, lines', alike]

theorem PageBlock.length {block : List String} (shown : m.PageBlock page block) :
    block.length = 14 := by
  cases shown with
  | lines headed ten grid => simp [ten]

theorem GridRow.cells_eq {n : Memory} {other row : Nat} {line : String}
    (shown : m.GridRow page row line) (others : n.GridRow other row line) :
    ∀ column < 10, m.cells[100 * page + 10 * row + column]? =
      n.cells[100 * other + 10 * row + column]? := by
  obtain ⟨label, numerals, tokens, -, -, cells⟩ := shown
  obtain ⟨label', numerals', tokens', -, -, cells'⟩ := others
  obtain ⟨-, rfl⟩ := List.cons.inj (tokens.symm.trans tokens')
  intro column inside
  obtain ⟨numeral, w, here, cell, reads⟩ := cells column inside
  obtain ⟨numeral', w', here', cell', reads'⟩ := cells' column inside
  obtain rfl : numeral = numeral' := Option.some.inj (here.symm.trans here')
  rw [cell, cell', Word.ext (reads.unique reads')]

theorem PageBlock.same {n : Memory} {other : Nat} {block : List String}
    (shown : m.PageBlock page block) (others : n.PageBlock other block) :
    page = other ∧ ∀ k < 100, m.cells[100 * page + k]? = n.cells[100 * other + k]? := by
  generalize lines : block = block' at others
  cases shown with
  | @lines heading rows headed ten grid =>
    cases others with
    | @lines heading' rows' headed' ten' grid' =>
      simp only [List.cons_append, List.cons.injEq, List.append_cancel_right_eq, true_and] at lines
      obtain ⟨rfl, rfl⟩ := lines
      constructor
      · exact Int.ofNat_inj.mp (headed.unique headed')
      · intro k bound
        obtain ⟨line, here, row⟩ := grid (k / 10) (by omega)
        obtain ⟨line', here', row'⟩ := grid' (k / 10) (by omega)
        obtain rfl : line = line' := Option.some.inj (here.symm.trans here')
        have place : 10 * (k / 10) + k % 10 = k := Nat.div_add_mod k 10
        have cells := row.cells_eq row' (k % 10) (Nat.mod_lt k (by decide))
        rwa [Nat.add_assoc, place, Nat.add_assoc, place] at cells

/-! ### The pages -/

def printedPages (m : Memory) (first last : UInt64) : List Nat :=
  (requested first last).filter fun page => 100 * page + 100 ≤ m.cells.size

variable {first last : UInt64}

theorem mem_printedPages :
    page ∈ m.printedPages first last ↔ m.Printed first last page := by
  simp only [printedPages, requested, pageCount, Printed, List.mem_filter, List.mem_range,
    Bool.and_eq_true, decide_eq_true_eq]
  omega

theorem printedPages_ascending : (m.printedPages first last).Pairwise (· < ·) :=
  (List.pairwise_lt_range.filter _).filter _

theorem flatMap_pageLines? (m : Memory) (first last : UInt64) :
    (requested first last).flatMap m.pageLines? =
      ((m.printedPages first last).map m.pageLines?).flatten := by
  have few : ∀ page ∈ requested first last, page < 100 := by
    intro page mem
    exact List.mem_range.mp (List.mem_of_mem_filter mem)
  unfold printedPages
  generalize requested first last = numbers at few ⊢
  induction numbers with
  | nil => rfl
  | cons page rest ih =>
    obtain ⟨here, behind⟩ := List.forall_mem_cons.mp few
    rw [List.flatMap_cons, ih behind]
    by_cases whole : 100 * page + 100 ≤ m.cells.size
    · rw [List.filter_cons_of_pos (by simpa using whole), List.map_cons, List.flatten_cons]
    · rw [List.filter_cons_of_neg (by simpa using whole),
        pageLines?_of_short here (Nat.lt_of_not_le whole), List.nil_append]

theorem pageBlocks (m : Memory) (first last : UInt64) :
    List.Forall₂ m.PageBlock (m.printedPages first last)
      ((m.printedPages first last).map m.pageLines?) := by
  rw [List.forall₂_map_right_iff, List.forall₂_same]
  intro page mem
  obtain ⟨-, bound, whole⟩ := mem_printedPages.mp mem
  exact pageBlock_pageLines? (by omega) whole

theorem pageBlocks_length {pages : List Nat} {blocks : List (List String)}
    (shown : List.Forall₂ m.PageBlock pages blocks) : ∀ block ∈ blocks, block.length = 14 := by
  induction shown with
  | nil => nofun
  | cons block rest ih => exact List.forall_mem_cons.mpr ⟨block.length, ih⟩

theorem pageBlocks_same {n : Memory} {pages others : List Nat} {blocks : List (List String)}
    (shown : List.Forall₂ m.PageBlock pages blocks)
    (shown' : List.Forall₂ n.PageBlock others blocks) :
    pages = others ∧ ∀ page ∈ pages, ∀ k < 100,
      m.cells[100 * page + k]? = n.cells[100 * page + k]? := by
  induction shown generalizing others with
  | nil =>
    cases shown'
    exact ⟨rfl, nofun⟩
  | cons block rest ih =>
    cases shown' with
    | cons block' rest' =>
      obtain ⟨rfl, cells⟩ := block.same block'
      obtain ⟨rfl, behind⟩ := ih rest'
      exact ⟨rfl, List.forall_mem_cons.mpr ⟨cells, behind⟩⟩

end Memory

theorem blocks_inj {k : Nat} {blocks others : List (List String)}
    (long : ∀ b ∈ blocks, b.length = k + 1) (long' : ∀ b ∈ others, b.length = k + 1)
    (same : blocks.flatten = others.flatten) : blocks = others := by
  have filled {b : List String} {bs : List (List String)} (long : b.length = k + 1) :
      (b :: bs).flatten ≠ [] := by
    intro none
    have count := congrArg List.length none
    simp only [List.flatten_cons, List.length_append, List.length_nil, long] at count
    omega
  induction blocks generalizing others with
  | nil =>
    cases others with
    | nil => rfl
    | cons b bs => cases filled (long' b List.mem_cons_self) same.symm
  | cons b bs ih =>
    cases others with
    | nil => cases filled (long b List.mem_cons_self) same
    | cons b' bs' =>
      obtain ⟨here, rest⟩ := List.forall_mem_cons.mp long
      obtain ⟨here', rest'⟩ := List.forall_mem_cons.mp long'
      obtain ⟨rfl, behind⟩ := List.append_inj same (here.trans here'.symm)
      exact congrArg (b :: ·) (ih rest rest' behind)

namespace Machine

variable {m n : Machine} {first last : UInt64}

/-! ### The whole dump -/

theorem registerBlock (m : Machine) : ∃ registers, m.RegisterBlock registers ∧
    m.registerLines = registers ++ ["MEMORY:"] := by
  refine ⟨_, .lines ?_ ?_ ?_ ?_ ?_, rfl⟩
  · exact labelled_write "accumulator         " (by decide) _ _
  · exact labelled_write "instructionCounter  " (by decide) _ _
  · exact labelled_write "instructionRegister " (by decide) _ _
  · exact labelled_write "operationCode       " (by decide) _ _
  · exact labelled_write "indexRegister       " (by decide) _ _

theorem RegisterBlock.length {registers : List String} (shown : m.RegisterBlock registers) :
    registers.length = 8 := by
  cases shown with
  | lines => rfl

theorem dumped (m : Machine) (first last : UInt64) :
    m.Dumped first last (m.dumpLines first last) := by
  obtain ⟨registers, shown, lines⟩ := m.registerBlock
  rw [dumpLines, lines, m.memory.flatMap_pageLines?, List.append_assoc]
  exact .lines shown Memory.printedPages_ascending (fun _ => Memory.mem_printedPages)
    (m.memory.pageBlocks first last)

theorem RegisterBlock.same {registers : List String} (shown : m.RegisterBlock registers)
    (others : n.RegisterBlock registers) :
    m.registers.accumulator = n.registers.accumulator ∧
      m.registers.counter = n.registers.counter ∧
      m.registers.instruction = n.registers.instruction ∧
      m.registers.index = n.registers.index := by
  cases shown with
  | lines accumulated counted instructed operated indexed =>
    cases others with
    | lines accumulated' counted' instructed' operated' indexed' =>
      exact ⟨Word.ext (accumulated.unique accumulated'),
        UInt64.toNat_inj.mp (Int.ofNat_inj.mp (counted.unique counted')),
        Word.ext (instructed.unique instructed'), Int32.toInt_inj.mp (indexed.unique indexed')⟩

theorem Dumped.alike {lines : List String} (shown : m.Dumped first last lines)
    (others : n.Dumped first last lines) : m.ShownAlike n first last := by
  generalize same : lines = lines' at others
  cases shown with
  | lines registers ascending printed grids =>
    cases others with
    | lines registers' ascending' printed' grids' =>
      obtain ⟨rfl, rest⟩ := List.append_inj same (registers.length.trans registers'.length.symm)
      obtain rfl := blocks_inj (Memory.pageBlocks_length grids) (Memory.pageBlocks_length grids')
        (List.cons.inj rest).2
      obtain ⟨accumulator, counter, instruction, index⟩ := registers.same registers'
      obtain ⟨rfl, cells⟩ := Memory.pageBlocks_same grids grids'
      exact {
        accumulator, counter, instruction, index
        pages := fun page => (printed page).symm.trans (printed' page)
        cells := fun page here => cells page ((printed page).mpr here) }

theorem ShownAlike.dumpLines_eq (alike : m.ShownAlike n first last) :
    m.dumpLines first last = n.dumpLines first last := by
  have registers : m.registerLines = n.registerLines := by
    simp only [registerLines, alike.accumulator, alike.counter, alike.instruction, alike.index]
  have pages : m.memory.printedPages first last = n.memory.printedPages first last := by
    apply Memory.printedPages_ascending.eq_of_mem_iff Memory.printedPages_ascending
    intro page
    rw [Memory.mem_printedPages, Memory.mem_printedPages, alike.pages]
  have blocks : (m.memory.printedPages first last).map m.memory.pageLines? =
      (n.memory.printedPages first last).map n.memory.pageLines? := by
    rw [← pages]
    apply List.map_congr_left
    intro page mem
    have printed := Memory.mem_printedPages.mp mem
    exact Memory.pageLines?_congr printed ((alike.pages page).mp printed) (alike.cells page printed)
  rw [dumpLines, dumpLines, registers, Memory.flatMap_pageLines?, Memory.flatMap_pageLines?, blocks]

end Machine

/-! ### Texts -/

theorem Machine.dumpText_eq_iff {m n : Machine} {first last : UInt64} :
    m.dumpText first last = n.dumpText first last ↔ m.ShownAlike n first last := by
  constructor
  · intro same
    have lines := lines_inj (m.flat_dumpLines first last) (n.flat_dumpLines first last) same
    have shown := m.dumped first last
    rw [lines] at shown
    exact shown.alike (n.dumped first last)
  · intro alike
    simp only [dumpText, alike.dumpLines_eq]

variable {ι ω : Type} [Sink ω] {holds : ω → String → Prop}

/-- The text of a dump has the lines of the registers and of the requested pages that memory has, in
their order, and the numerals in them stand for the registers and the cells. Two dumps over one
range of pages have the same text exactly if they are of the same registers and the same cells. -/
theorem dump_read_back (reliable : Reliable holds) (m : Machine) (first last : UInt64) :
    (∀ input : ι, Comes holds (Console.writeLines (m.dumpLines first last) :
        Dialogue ι ω IoError Unit) input (.ok ()) input (m.dumpText first last)) ∧
    (∃ lines, m.dumpText first last = String.join (lines.map (· ++ "\n")) ∧
      (∀ line ∈ lines, Flat line) ∧ m.Dumped first last lines) ∧
    ∀ n : Machine, m.dumpText first last = n.dumpText first last ↔ m.ShownAlike n first last := by
  constructor
  · intro input
    exact Comes.writeLines reliable _
  · constructor
    · exact ⟨_, rfl, m.flat_dumpLines first last, m.dumped first last⟩
    · intro n
      exact Machine.dumpText_eq_iff

-- A machine with a page and a half of memory, and a word at this address.
def marked (address : Nat) : Machine :=
  { Machine.fresh with
    memory := ⟨(Array.replicate 150 Word.zero).setIfInBounds address (.ofInt (-7))⟩ }

theorem dump_read_back_marked :
    (marked 42).dumpText 0 5 ≠ (marked 43).dumpText 0 5 ∧
      (marked 120).dumpText 0 5 = (marked 121).dumpText 0 5 := by
  have size (address : Nat) : (marked address).memory.cells.size = 150 := by simp [marked]
  have read (address : Nat) := dump_read_back (ι := Script) Transcript.reliable (marked address) 0 5
  constructor
  · intro same
    have alike := ((read 42).2.2 (marked 43)).mp same
    have printed : (marked 42).memory.Printed 0 5 0 := ⟨by decide, by decide, by rw [size]; decide⟩
    have cell : Word.ofInt (-7) = Word.zero := by
      simpa [marked] using alike.cells 0 printed 42 (by decide)
    exact absurd cell (by decide)
  · apply ((read 120).2.2 (marked 121)).mpr
    refine ⟨rfl, rfl, rfl, rfl, ?_, ?_⟩
    · intro page
      simp only [Memory.Printed, size]
    · intro page printed k bound
      have single : page = 0 := by
        have whole := printed.2.2
        rw [size] at whole
        omega
      subst single
      simp only [marked, Nat.mul_zero, Nat.zero_add]
      rw [Array.getElem?_setIfInBounds_ne (by omega), Array.getElem?_setIfInBounds_ne (by omega)]

end DecimalMachine
