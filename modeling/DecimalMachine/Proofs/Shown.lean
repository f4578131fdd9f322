import DecimalMachine.Dump
import DecimalMachine.Proofs.FailedStep
import DecimalMachine.Proofs.Readings
import DecimalMachine.Proofs.Spelling

/-!
Words that were shown are read back.

A word is shown with its sign, in the grid of a page, or plainly. Whichever form each word of a list
has, and whatever else stands between them that is no integer, a text of them gives the list: as a
program, and read for its integers.
-/

namespace DecimalMachine

/-- The texts that a word is shown as: with its sign, as in a listing and in the registers; as in
the grid of a page; and plainly, as a program writes it. -/
inductive Word.Shown (w : Word) : String → Prop where
  | signed : w.Shown w.text
  | inGrid : w.Shown (Memory.cellNumeral.write w.value)
  | plain : w.Shown (Decimal.Numeral.plain.write w.value)

namespace Word

def toInt64 (w : Word) : Int64 := Int64.ofInt w.value

theorem toInt_toInt64 (w : Word) : w.toInt64.toInt = w.value := by
  have lower := w.lower
  have upper := w.upper
  exact Int64.toInt_ofInt_of_le (by omega) (by omega)

theorem ofInt64_toInt64 (w : Word) : ofInt64 w.toInt64 = .ok w := by
  simp only [ofInt64, toInt_toInt64, ofInt?_value]

theorem Shown.spells {w : Word} {token : String} (shown : w.Shown token) :
    Decimal.Spells token.toList w.value := by
  cases shown with
  | signed => exact Decimal.spells_write _ _
  | inGrid => exact Decimal.spells_write _ _
  | plain => exact Decimal.spells_write _ _

theorem Shown.int64? {w : Word} {token : String} (shown : w.Shown token) :
    Decimal.int64? token = some w.toInt64 := by
  rw [Decimal.int64?_eq_some_iff, toInt_toInt64]
  exact shown.spells

end Word

namespace Text

/-- The text has these tokens, with white space between any two of them; more may stand anywhere
around them. -/
inductive Spaced : List String → List Char → Prop where
  | empty : Spaced [] []
  | blank {c : Char} {cs : List Char} {tokens : List String} (blank : isBlank c)
      (rest : Spaced tokens cs) : Spaced tokens (c :: cs)
  | last (token : String) : Spaced [token] token.toList
  | token {c : Char} {cs : List Char} {tokens : List String} (token : String) (blank : isBlank c)
      (rest : Spaced tokens cs) : Spaced (token :: tokens) (token.toList ++ c :: cs)

def IsToken (token : String) : Prop :=
  token.toList ≠ [] ∧ ∀ c ∈ token.toList, isBlank c = false

theorem IsToken.tokenChars {token : String} (whole : IsToken token) :
    Text.tokenChars token.toList = [token.toList] :=
  tokenChars_of_token whole.1 whole.2

theorem Spaced.tokens {tokens : List String} {text : String} (spaced : Spaced tokens text.toList)
    (whole : ∀ token ∈ tokens, IsToken token) : Text.tokens text = tokens := by
  have cut : Text.tokenChars text.toList = tokens.map String.toList := by
    generalize text.toList = cs at spaced
    induction spaced with
    | empty => rfl
    | blank blank rest ih => rw [tokenChars_blank blank, ih whole]
    | last token =>
      exact (List.forall_mem_singleton.mp whole).tokenChars
    | token token blank rest ih =>
      obtain ⟨first, others⟩ := List.forall_mem_cons.mp whole
      rw [tokenChars_append_blank _ blank, first.tokenChars, ih others]
      rfl
  rw [Text.tokens, cut, List.map_map]
  simp

end Text

namespace Program

/-- The tokens are these words in order, as they are shown, and any others that are no integers. -/
inductive Shows : List Word → List String → Prop where
  | none : Shows [] []
  | word {w : Word} {ws : List Word} {token : String} {tokens : List String}
      (shown : w.Shown token) (rest : Shows ws tokens) : Shows (w :: ws) (token :: tokens)
  | other {ws : List Word} {token : String} {tokens : List String} (whole : Text.IsToken token)
      (noInteger : Decimal.int64? token = Option.none) (rest : Shows ws tokens) :
      Shows ws (token :: tokens)

variable {ws : List Word} {tokens : List String}

theorem Shows.isToken (shows : Shows ws tokens) : ∀ token ∈ tokens, Text.IsToken token := by
  induction shows with
  | none => nofun
  | word shown rest ih =>
    exact List.forall_mem_cons.mpr ⟨⟨shown.spells.ne_nil, shown.spells.letters⟩, ih⟩
  | other whole noInteger rest ih => exact List.forall_mem_cons.mpr ⟨whole, ih⟩

theorem Shows.integers (shows : Shows ws tokens) :
    tokens.filterMap Decimal.int64? = ws.map Word.toInt64 := by
  induction shows with
  | none => rfl
  | word shown rest ih => rw [List.filterMap_cons_some shown.int64?, ih, List.map_cons]
  | other whole noInteger rest ih => rw [List.filterMap_cons_none noInteger, ih]

theorem Shows.scan (shows : Shows ws tokens) {room : Nat} (fits : ws.length ≤ room) :
    (Program.scan room tokens).program = ⟨ws, []⟩ := by
  induction shows generalizing room with
  | none => cases room <;> rfl
  | @word w ws token tokens shown rest ih =>
    obtain ⟨room, rfl⟩ := Nat.exists_eq_add_of_le' (Nat.lt_of_lt_of_le (Nat.succ_pos _) fits)
    have others := ih (Nat.le_of_succ_le_succ fits)
    simp only [Program.scan, shown.int64?, w.ofInt64_toInt64, Scan.accept, others]
  | other whole noInteger rest ih =>
    cases room with
    | zero =>
      -- There is no room left, so that all the words have been read.
      obtain rfl := List.length_eq_zero_iff.mp (Nat.le_zero.mp fits)
      rfl
    | succ room =>
      simp only [Program.scan, noInteger, Scan.skip]
      exact ih fits

/-- A text of shown words, with white space between them and among any tokens that are no integers,
gives these words: loaded as a program, without a rejected integer, and read as a stream, which ends
behind them. -/
theorem shown_words_reload {text : String} (fits : ws.length ≤ 100) (shows : Shows ws tokens)
    (spaced : Text.Spaced tokens text.toList) :
    ofText text = ⟨ws, []⟩ ∧
    ∀ n, Source.findingAt n (IntegerStream.ofBytes (Text.bytes text)) =
      (IntegerStream.integerFindings (ws.map Word.toInt64)).getD n (.ok Option.none) := by
  have cut := spaced.tokens shows.isToken
  constructor
  · rw [ofText, scanText, cut]
    exact shows.scan fits
  · intro n
    rw [IntegerStream.findingAt_eq, IntegerStream.yields_text, integers_eq, cut, shows.integers]

-- Each of the forms once, on two lines, with a comment and with white space of other kinds.
def mixedForms : String := "\t+01007 ; data\n-00042\u2003 450000\r\n1.5"

theorem shown_words_reload_mixed :
    ([1007, -42, 450000].map Word.ofInt).length ≤ 100 ∧
    Shows ([1007, -42, 450000].map Word.ofInt) ["+01007", ";", "data", "-00042", "450000", "1.5"] ∧
    Text.Spaced ["+01007", ";", "data", "-00042", "450000", "1.5"] mixedForms.toList ∧
    ofText mixedForms = ⟨[1007, -42, 450000].map Word.ofInt, []⟩ ∧
    Source.findingAt 1 (IntegerStream.ofBytes (Text.bytes mixedForms)) = .ok (some (-42)) ∧
    Source.findingAt 3 (IntegerStream.ofBytes (Text.bytes mixedForms)) = .ok Option.none := by
  have token {token : String}
      (all : token.toList ≠ [] ∧ token.toList.all fun c => !Text.isBlank c) :
      Text.IsToken token := ⟨all.1, by simpa using all.2⟩
  have shows : Shows ([1007, -42, 450000].map Word.ofInt)
      ["+01007", ";", "data", "-00042", "450000", "1.5"] :=
    .word .signed (.other (token (by decide)) (by decide) (.other (token (by decide)) (by decide)
      (.word .inGrid (.word .plain (.other (token (by decide)) (by decide) .none)))))
  have chars : mixedForms.toList = '\t' :: ("+01007".toList ++ ' ' :: (";".toList ++ ' ' ::
      ("data".toList ++ '\n' :: ("-00042".toList ++ '\u2003' :: ' ' :: ("450000".toList ++ '\r' ::
        '\n' :: "1.5".toList))))) := by decide
  have spaced : Text.Spaced ["+01007", ";", "data", "-00042", "450000", "1.5"]
      mixedForms.toList := by
    rw [chars]
    exact .blank (by decide) (.token _ (by decide) (.token _ (by decide) (.token _ (by decide)
      (.token _ (by decide) (.blank (by decide) (.token _ (by decide) (.blank (by decide)
        (.last _))))))))
  obtain ⟨loaded, found⟩ := shown_words_reload (by decide) shows spaced
  exact ⟨by decide, shows, spaced, loaded, found 1, found 3⟩

end Program

end DecimalMachine
