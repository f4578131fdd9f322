import Mathlib.Data.Nat.Digits.Defs
import DecimalMachine.Proofs.Mnemonics
import DecimalMachine.Proofs.Packing
import DecimalMachine.Proofs.Shown

/-!
Reading a listing back.

A word stands in its line behind the last semicolon: a word without an operation has one more in its
mnemonic form, in front of that one, and numerals have none. A listing therefore determines its
words, however many they are.

Every mnemonic form fits its columns, so that the lines of a short listing are aligned.
-/

namespace DecimalMachine

open Decimal (Numeral)

/-! ### The last mark of a line -/

/-- The part stands in the text at this column, and nowhere behind it. -/
def Text.LastAt (part : String) (column : Nat) (text : String) : Prop :=
  (∃ before after, text = before ++ part ++ after ∧ before.length = column) ∧
    ∀ before after, text = before ++ part ++ after → before.length ≤ column

theorem append_cons_inj_of_notMem {x : Char} {a b c d : List Char} (clear : x ∉ c)
    (clear' : x ∉ d) : a ++ x :: c = b ++ x :: d ↔ a = b ∧ c = d := by
  have reversed := append_inj_of_notMem (x := x) (c := x :: a.reverse) (d := x :: b.reverse)
    (List.mem_reverse.not.mpr clear) (List.mem_reverse.not.mpr clear') (by simp) (by simp)
  rw [← List.reverse_inj]
  simpa [and_comm] using reversed

theorem length_le_of_notMem {x : Char} {a b c d : List Char} (clear : x ∉ c)
    (same : a ++ x :: c = b ++ x :: d) : b.length ≤ a.length := by
  rcases List.append_eq_append_iff.mp same with ⟨between, rfl, rest⟩ | ⟨between, rfl, -⟩
  · cases between with
    | nil => simp
    | cons y between =>
      -- The other `x` would stand behind the last one.
      obtain ⟨-, rfl⟩ := List.cons.inj rest
      simp at clear
  · simp

/-! ### The width of numerals -/

namespace Decimal

theorem length_digits_le {k n : Nat} (positive : 0 < k) (bound : n < 10 ^ k) :
    (digits n).length ≤ k :=
  Nat.toDigits_length 10 n k positive bound

namespace Numeral

variable {form : Numeral}

theorem length_write (form : Numeral) (z : Int) : (form.write z).length =
    max form.width ((form.sign z).length + (digits z.natAbs).length) := by
  simp only [write, chars, String.length_ofList, List.length_append, List.length_replicate]
  omega

theorem length_write_nat (plain : form.plus = false) (n : Nat) :
    (form.write n).length = max form.width (digits n).length := by
  rw [length_write, sign_nat plain, List.length_nil, Nat.zero_add, Int.natAbs_natCast]

theorem length_write_of_fits (plain : form.plus = false) {n : Nat} (columns : 0 < form.width)
    (fits : n < 10 ^ form.width) : (form.write n).length = form.width := by
  rw [length_write_nat plain]
  exact Nat.max_eq_left (length_digits_le columns fits)

theorem length_sign_le (form : Numeral) (z : Int) : (form.sign z).length ≤ 1 := by
  unfold sign
  split
  · simp
  · split <;> simp

theorem digits_write (plain : form.plus = false) (n : Nat) : Digits (form.write n).toList n := by
  rw [write, String.toList_ofList, chars, sign_nat plain, List.nil_append, Int.natAbs_natCast]
  exact magnitude?_eq_some_iff.mp (magnitude?_zeros_digits _ n)

end Numeral

end Decimal

/-! ### The width of the mnemonic form -/

/-- The text stays on one line, and in so many columns. -/
structure Text.Fits (columns : Nat) (text : String) : Prop where
  flat : Flat text
  length : text.length ≤ columns

instance (columns : Nat) (text : String) : Decidable (Text.Fits columns text) :=
  decidable_of_iff (Flat text ∧ text.length ≤ columns) ⟨fun h => ⟨h.1, h.2⟩, fun h => ⟨h.1, h.2⟩⟩

theorem Text.Fits.append {m n : Nat} {a b : String} (first : Fits m a) (second : Fits n b) :
    Fits (m + n) (a ++ b) := by
  refine ⟨first.flat.append second.flat, ?_⟩
  rw [String.length_append]
  exact Nat.add_le_add first.length second.length

theorem Decimal.Numeral.write_fits {form : Numeral} (plain : form.plus = false) {columns n : Nat}
    (width : form.width = columns) (positive : 0 < columns) (fits : n < 10 ^ columns) :
    Text.Fits columns (form.write n) := by
  subst width
  exact ⟨.numeral form n, Nat.le_of_eq (length_write_of_fits plain positive fits)⟩

theorem Word.write_fits (form : Numeral) (narrow : form.width ≤ 6) (w : Word) :
    Text.Fits 7 (form.write w.value) := by
  have sign := form.length_sign_le w.value
  have digits := Decimal.length_digits_le (k := 6) (by decide) w.natAbs_lt
  refine ⟨.numeral form w.value, ?_⟩
  rw [form.length_write]
  omega

namespace Opcode

def detailWidth : Opcode → Nat
  | .unknown _ => 10
  | .loadImmediate => 8
  | .halt => 6
  | _ => 5

theorem detail_fits (op : Opcode) (w : Word) : Text.Fits op.detailWidth (op.detail w) := by
  have blank : Text.Fits 1 " " := by decide
  unfold detail
  cases op with
  | unknown code =>
    have semicolon : Text.Fits 3 " ; " := by decide
    exact semicolon.append (w.write_fits Word.numeral (by decide))
  | loadImmediate => exact blank.append (w.immediate.write_fits .plain (by decide))
  | halt =>
    have hyphen : Text.Fits 1 "-" := by decide
    have page {n : Nat} (bound : n ≤ 99) : Text.Fits 2 (Numeral.write { width := 2 } n) :=
      Numeral.write_fits rfl rfl Nat.two_pos (Nat.lt_succ_of_le bound)
    have pages := ((page w.haltPages_le.1).append hyphen).append (page w.haltPages_le.2)
    exact blank.append pages
  | _ =>
    have operand : Text.Fits 4 (Instruction.operandNumeral.write w.operand.toNat) :=
      Numeral.write_fits rfl rfl (by decide) (Nat.lt_succ_of_le w.operand_le)
    dsimp only
    split
    · exact blank.append operand
    · exact (by decide : Text.Fits 5 "")

theorem mnemonic_fits (op : Opcode) :
    ∃ columns, Text.Fits columns op.mnemonic ∧
      columns + op.detailWidth = Listing.mnemonicWidth := by
  refine ⟨Listing.mnemonicWidth - op.detailWidth, ?_⟩
  cases op with
  | unknown code => exact (by decide : Text.Fits 6 "???" ∧ 6 + 10 = 16)
  | _ => decide

end Opcode

namespace Word

theorem mnemonicText_fits (w : Word) : Text.Fits Listing.mnemonicWidth w.mnemonicText := by
  obtain ⟨columns, name, whole⟩ := (Instruction.ofWord w).opcode.mnemonic_fits
  rw [mnemonicText_eq, ← whole]
  exact name.append (Opcode.detail_fits _ w)

theorem trim_text (w : Word) : Text.trim (" " ++ w.text) = w.text := by
  have shown : w.Shown w.text := .signed
  have single : Text.tokenChars (" " ++ w.text).toList = [w.text.toList] := by
    rw [String.toList_append]
    exact (Text.tokenChars_blank (by decide) _).trans
      (Text.tokenChars_of_token shown.spells.ne_nil shown.spells.letters)
  rw [Text.trim, Text.trimChars_of_singleton single, String.ofList_toList]

end Word

namespace Listing

/-! ### The lines -/

/-- The line has this location in front, in at least two columns, and behind its last semicolon the
value of this word. -/
structure Row (location : Nat) (w : Word) (line : String) : Prop where
  flat : Flat line
  numbered : ∃ number rest, line = number ++ ": " ++ rest ∧
    Decimal.Digits number.toList location ∧
    number.length = max 2 (Decimal.digits location).length
  told : ∃ before behind v, line = before ++ ";" ++ behind ∧ ';' ∉ behind.toList ∧
    Decimal.int64? (Text.trim behind) = some v ∧ v.toInt = w.value

def headingLines : List String := ["; Simpletron Disassembly", "; ----------------------", ""]

def front (location : Nat) (w : Word) : String :=
  locationNumeral.write location ++ ": " ++ Text.padRight mnemonicWidth w.mnemonicText

def row (location : Nat) (w : Word) : String := front location w ++ " ; " ++ w.text

def rows : Nat → List Word → List String
  | _, [] => []
  | location, w :: ws => row location w :: rows (location + 1) ws

variable {location : Nat} {v w : Word} {line : String}

theorem text_eq (words : List Word) :
    text words = String.join ((headingLines ++ rows 0 words).map (· ++ "\n")) := by
  have lines (location : Nat) (words : List Word) :
      body location words = String.join ((rows location words).map (· ++ "\n")) := by
    induction words generalizing location with
    | nil => rfl
    | cons w ws ih =>
      rw [body, rows, ih]
      simp [Listing.line, row, front, String.append_assoc]
  have heading : heading = String.join (headingLines.map (· ++ "\n")) := by decide
  rw [text, lines, heading, List.map_append, String.join_append]

theorem length_rows (location : Nat) (words : List Word) :
    (rows location words).length = words.length := by
  induction words generalizing location with
  | nil => rfl
  | cons w ws ih => rw [rows, List.length_cons, List.length_cons, ih]

theorem getElem?_rows (location : Nat) (words : List Word) (k : Nat) :
    (rows location words)[k]? = words[k]?.map (row (location + k)) := by
  induction words generalizing location k with
  | nil => rfl
  | cons w ws ih =>
    cases k with
    | zero => rfl
    | succ k =>
      have place : location + 1 + k = location + (k + 1) := by omega
      rw [rows, List.getElem?_cons_succ, List.getElem?_cons_succ, ih, place]

theorem row_eq (location : Nat) (w : Word) :
    row location w = front location w ++ " " ++ ";" ++ (" " ++ w.text) := by
  have mark : " ; " = " " ++ (";" ++ " ") := by decide
  simp only [row, mark, String.append_assoc]

theorem notMem_behind (w : Word) : ';' ∉ (" " ++ w.text).toList := by
  have spelled := Decimal.spells_write Word.numeral w.value
  rw [String.toList_append, List.mem_append]
  rintro (blank | semicolon)
  · exact absurd blank (by decide)
  · exact absurd (spelled.sign_or_digit _ semicolon) (by decide)

theorem row_shown (location : Nat) (w : Word) : Row location w (row location w) := by
  have mark : Flat " ; " := by decide
  constructor
  · exact ((((Flat.numeral _ _).append (by decide)).append
      (w.mnemonicText_fits.flat.padRight mnemonicWidth)).append mark).append (.numeral _ _)
  · refine ⟨locationNumeral.write location,
      Text.padRight mnemonicWidth w.mnemonicText ++ " ; " ++ w.text, ?_,
      Numeral.digits_write rfl location, Numeral.length_write_nat rfl location⟩
    simp only [row, front, String.append_assoc]
  · refine ⟨front location w ++ " ", " " ++ w.text, w.toInt64, row_eq location w, notMem_behind w,
      ?_, w.toInt_toInt64⟩
    rw [w.trim_text]
    exact Word.Shown.signed.int64?

theorem Row.unique {location' : Nat} (shown : Row location v line) (shown' : Row location' w line) :
    v = w := by
  obtain ⟨before, behind, x, rfl, clear, read, value⟩ := shown.told
  obtain ⟨before', behind', x', same, clear', read', value'⟩ := shown'.told
  have parts : before.toList ++ ';' :: behind.toList = before'.toList ++ ';' :: behind'.toList := by
    simpa using congrArg String.toList same
  obtain ⟨-, last⟩ := (append_cons_inj_of_notMem clear clear').mp parts
  obtain rfl := String.toList_inj.mp last
  obtain rfl := Option.some.inj (read.symm.trans read')
  exact Word.ext (value.symm.trans value')

theorem length_front (few : location < 100) (w : Word) : (front location w).length = 20 := by
  have number : (locationNumeral.write location).length = 2 :=
    Numeral.length_write_of_fits rfl (by decide) few
  have padded := w.mnemonicText_fits.length
  have columns : (Text.padRight mnemonicWidth w.mnemonicText).length = 16 := by
    simp only [Text.padRight, Text.blanks, String.length_append, String.length_ofList,
      List.length_replicate]
    simp only [mnemonicWidth] at *
    omega
  rw [front, String.length_append, String.length_append, number, columns]
  rfl

theorem row_lastAt (few : location < 100) (w : Word) : Text.LastAt " ; " 20 (row location w) := by
  constructor
  · exact ⟨front location w, w.text, rfl, length_front few w⟩
  · intro before after same
    have parts : (front location w ++ " ").toList ++ ';' :: (" " ++ w.text).toList =
        (before ++ " ").toList ++ ';' :: (" " ++ after).toList := by
      rw [row_eq] at same
      simpa using congrArg String.toList same
    have bound := length_le_of_notMem (notMem_behind w) parts
    rw [String.length_toList, String.length_toList, String.length_append, String.length_append,
      length_front few w] at bound
    exact Nat.le_of_add_le_add_right bound

/-! ### The whole listing -/

/-- The lines are those of the words, in their order. As long as two digits are enough for the
locations, the last semicolons stand in one column. -/
structure Shows (words : List Word) (lines : List String) : Prop where
  length : lines.length = words.length
  rows : ∀ k w, words[k]? = some w → ∃ line, lines[k]? = some line ∧ Row k w line
  aligned : words.length ≤ 100 → ∀ line ∈ lines, Text.LastAt " ; " 20 line

variable {words others : List Word} {lines : List String}

theorem shows_rows (words : List Word) : Shows words (rows 0 words) := by
  refine ⟨length_rows 0 words, ?_, ?_⟩
  · intro k w here
    refine ⟨row k w, ?_, row_shown k w⟩
    rw [getElem?_rows, here, Nat.zero_add]
    rfl
  · intro short line mem
    obtain ⟨k, here⟩ := List.mem_iff_getElem?.mp mem
    rw [getElem?_rows, Nat.zero_add] at here
    obtain ⟨w, word, rfl⟩ := Option.map_eq_some_iff.mp here
    obtain ⟨inside, -⟩ := List.getElem?_eq_some_iff.mp word
    exact row_lastAt (Nat.lt_of_lt_of_le inside short) w

theorem Shows.flat (shows : Shows words lines) : ∀ line ∈ lines, Flat line := by
  intro line mem
  obtain ⟨k, here⟩ := List.mem_iff_getElem?.mp mem
  obtain ⟨inside, -⟩ := List.getElem?_eq_some_iff.mp here
  rw [shows.length] at inside
  obtain ⟨line', there, shown⟩ := shows.rows k _ (List.getElem?_eq_getElem inside)
  obtain rfl := Option.some.inj (here.symm.trans there)
  exact shown.flat

theorem Shows.unique (shows : Shows words lines) (shows' : Shows others lines) :
    words = others := by
  have length := shows.length.symm.trans shows'.length
  apply List.ext_getElem length
  intro k inside inside'
  obtain ⟨line, here, shown⟩ := shows.rows k _ (List.getElem?_eq_getElem inside)
  obtain ⟨line', there, shown'⟩ := shows'.rows k _ (List.getElem?_eq_getElem inside')
  obtain rfl := Option.some.inj (here.symm.trans there)
  exact shown.unique shown'

theorem text_inj : text words = text others ↔ words = others := by
  constructor
  · intro same
    have heading : ∀ line ∈ headingLines, Flat line := by decide
    have flat (words : List Word) : ∀ line ∈ headingLines ++ rows 0 words, Flat line :=
      List.forall_mem_append.mpr ⟨heading, (shows_rows words).flat⟩
    rw [text_eq, text_eq] at same
    have lines := List.append_cancel_left (lines_inj (flat words) (flat others) same)
    have shows := shows_rows words
    rw [lines] at shows
    exact shows.unique (shows_rows others)
  · rintro rfl
    rfl

end Listing

/-- A listing is two lines of comment, an empty one and a line for each word, from which its
location and its value are read back, so that no other words have this listing. Every mnemonic form
fits its columns; in a listing of at most a hundred words, the words stand in one column. -/
theorem listing_read_back :
    (∀ words : List Word, ∃ lines, Listing.Shows words lines ∧
      Listing.text words = String.join ((Listing.headingLines ++ lines).map (· ++ "\n"))) ∧
    (∀ words others : List Word, Listing.text words = Listing.text others ↔ words = others) ∧
    ∀ w : Word, w.mnemonicText.length ≤ 16 := by
  refine ⟨?_, fun words others => Listing.text_inj, fun w => w.mnemonicText_fits.length⟩
  intro words
  exact ⟨_, Listing.shows_rows words, Listing.text_eq words⟩

example : Listing.text ([310000, 4000, -450205].map Word.ofInt) =
    "; Simpletron Disassembly\n; ----------------------\n\n" ++
    "00: ADDX             ; +310000\n" ++
    "01: ??? ; +04000     ; +04000\n" ++
    "02: HALT 02-05       ; -450205\n" := by decide

end DecimalMachine
