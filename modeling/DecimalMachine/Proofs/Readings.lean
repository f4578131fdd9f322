import DecimalMachine.Console.Input
import DecimalMachine.Proofs.Scan

/-!
What the reads of a byte stream find, one after another.

`IntegerStream.yields` lists what a stream still has to give: an entry for each integer and for each
line that is no text. A read finds the first entry and leaves the others, so that the reads go
through the list, and find the end for ever behind it.
-/

namespace DecimalMachine

abbrev Finding := Except IoError (Option Int64)

def Source.findingAt {ι : Type} [Source ι] : Nat → ι → Finding
  | 0, input => (Source.read input).1.outcome
  | n + 1, input => findingAt n (Source.read input).2

namespace IntegerStream

def integerFindings (vs : List Int64) : List Finding := vs.map fun v => .ok (some v)

/-- The findings of a line: its integers, or one failure if it is no text. -/
def lineFindings (line : Text.Line) : List Finding :=
  match Text.ofUtf8? line with
  | some text => integerFindings (Program.integers text)
  | none => [.error .invalidUtf8]

/-- All that the stream still has to give. -/
def yields (s : IntegerStream) : List Finding :=
  integerFindings (s.pending.filterMap Decimal.int64?) ++ s.unread.flatMap lineFindings

def ofBytes (bytes : List UInt8) : IntegerStream := { unread := Text.lines bytes }

theorem integers_of_first {tokens skipped rest : List String} {v : Int64}
    (first : firstInteger tokens = (skipped, some (v, rest))) :
    tokens.filterMap Decimal.int64? = v :: rest.filterMap Decimal.int64? := by
  induction tokens generalizing skipped with
  | nil => cases first
  | cons token tokens ih =>
    cases value : Decimal.int64? token with
    | some u =>
      simp only [firstInteger, value] at first
      cases first
      exact List.filterMap_cons_some value
    | none =>
      simp only [firstInteger, value, Prod.mk.injEq] at first
      rw [List.filterMap_cons_none value]
      exact ih (Prod.ext rfl first.2)

theorem integers_of_none {tokens skipped : List String}
    (first : firstInteger tokens = (skipped, none)) : tokens.filterMap Decimal.int64? = [] := by
  induction tokens generalizing skipped with
  | nil => rfl
  | cons token tokens ih =>
    cases value : Decimal.int64? token with
    | some u =>
      simp only [firstInteger, value] at first
      cases first
    | none =>
      simp only [firstInteger, value, Prod.mk.injEq] at first
      rw [List.filterMap_cons_none value]
      exact ih (Prod.ext rfl first.2)

variable {pending rest : List String} {unread : List Text.Line} {line : Text.Line}

theorem yields_integer {v : Int64}
    (first : pending.filterMap Decimal.int64? = v :: rest.filterMap Decimal.int64?) :
    yields ⟨pending, unread⟩ = .ok (some v) :: yields ⟨rest, unread⟩ := by
  rw [yields, first]
  rfl

theorem yields_passed (passed : pending.filterMap Decimal.int64? = []) :
    yields ⟨pending, unread⟩ = unread.flatMap lineFindings := by
  rw [yields, passed]
  rfl

theorem lineFindings_of_text {text : String} (decoded : Text.ofUtf8? line = some text) :
    lineFindings line = integerFindings (Program.integers text) := by
  simp only [lineFindings, decoded]

theorem lineFindings_of_no_text (undecoded : Text.ofUtf8? line = none) :
    lineFindings line = [.error .invalidUtf8] := by
  simp only [lineFindings, undecoded]

theorem yields_text_line {text : String} (decoded : Text.ofUtf8? line = some text)
    (passed : pending.filterMap Decimal.int64? = []) :
    yields ⟨pending, line :: unread⟩ = yields ⟨Text.tokens text, unread⟩ := by
  rw [yields_passed passed, List.flatMap_cons, lineFindings_of_text decoded, Program.integers_eq]
  rfl

theorem yields_no_text (undecoded : Text.ofUtf8? line = none)
    (passed : pending.filterMap Decimal.int64? = []) :
    yields ⟨pending, line :: unread⟩ = .error .invalidUtf8 :: yields ⟨[], unread⟩ := by
  rw [yields_passed passed, List.flatMap_cons, lineFindings_of_no_text undecoded]
  rfl

theorem readFrom_takes (pending : List String) (unread : List Text.Line) :
    (readFrom pending unread).1.outcome = (yields ⟨pending, unread⟩).headD (.ok none) ∧
    (readFrom pending unread).2.yields = (yields ⟨pending, unread⟩).tail := by
  induction unread generalizing pending with
  | nil =>
    unfold readFrom
    split
    · rename_i skipped v rest first
      rw [yields_integer (integers_of_first first)]
      exact ⟨rfl, rfl⟩
    · rename_i skipped first
      rw [yields_passed (integers_of_none first)]
      exact ⟨rfl, rfl⟩
  | cons line unread ih =>
    unfold readFrom
    split
    · rename_i skipped v rest first
      rw [yields_integer (integers_of_first first)]
      exact ⟨rfl, rfl⟩
    · rename_i skipped first
      have passed := integers_of_none first
      split
      · rename_i undecoded
        rw [yields_no_text undecoded passed]
        exact ⟨rfl, rfl⟩
      · rename_i text decoded
        -- The line takes the place of what was pending, and gives the same.
        rw [yields_text_line decoded passed]
        exact ih (Text.tokens text)

theorem findingAt_eq (n : Nat) (s : IntegerStream) :
    Source.findingAt n s = s.yields.getD n (.ok none) := by
  induction n generalizing s with
  | zero =>
    rw [Source.findingAt, List.getD_eq_getElem?_getD, ← List.head?_eq_getElem?,
      ← List.headD_eq_head?_getD]
    exact (readFrom_takes s.pending s.unread).1
  | succ n ih =>
    have left : (Source.read s).2.yields = s.yields.tail := (readFrom_takes s.pending s.unread).2
    rw [Source.findingAt, ih, left]
    cases s.yields <;> rfl

theorem yields_text (text : String) :
    (ofBytes (Text.bytes text)).yields = integerFindings (Program.integers text) := by
  have lines : (ofBytes (Text.bytes text)).yields =
      (Text.textLines text).flatMap fun line => lineFindings (Text.bytes line) := by
    rw [← List.flatMap_map, ← Text.lines_bytes]
    exact yields_passed rfl
  rw [lines, Program.integers_lines, integerFindings, List.map_flatMap]
  simp only [lineFindings_of_text (Text.ofUtf8?_bytes _), integerFindings]

/-- The reads of a stream find what is in its lines, one line after another: each integer of a line
in order, or one failure for a line that is no text. Behind the last line they find the end for
ever. Those of a text find the integers of the whole text in order. -/
theorem stream_found (bytes : List UInt8) :
    Text.InLines bytes (Text.lines bytes) ∧
    (∀ n, Source.findingAt n (ofBytes bytes) =
      ((Text.lines bytes).flatMap lineFindings).getD n (.ok none)) ∧
    ∀ text, bytes = Text.bytes text → ∀ n, Source.findingAt n (ofBytes bytes) =
      (integerFindings (Program.integers text)).getD n (.ok none) := by
  refine ⟨Text.inLines_lines bytes, fun n => ?_, ?_⟩
  · rw [findingAt_eq, ofBytes, yields_passed rfl]
  · rintro text rfl n
    rw [findingAt_eq, yields_text]

end IntegerStream

end DecimalMachine
