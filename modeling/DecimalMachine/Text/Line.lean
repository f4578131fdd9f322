/-!
Lines of a byte stream. A line runs up to and including its newline; the last one may lack it.

`flatten_lines` says that cutting loses nothing. A line is a text only if its bytes are UTF-8.
-/

namespace DecimalMachine.Text

abbrev Line := List UInt8

def newline : UInt8 := 10

/-- One byte in front of a stream that is already cut: a newline ends its own line, any other byte
belongs to the line that follows it. -/
def lineBefore (b : UInt8) : List Line → List Line
  | [] => [[b]]
  | line :: rest => if b = newline then [b] :: line :: rest else (b :: line) :: rest

def lines (bytes : List UInt8) : List Line := bytes.foldr lineBefore []

theorem flatten_lineBefore (b : UInt8) (ls : List Line) :
    (lineBefore b ls).flatten = b :: ls.flatten := by
  cases ls with
  | nil => rfl
  | cons line rest => by_cases h : b = newline <;> simp [lineBefore, h]

theorem flatten_lines (bytes : List UInt8) : (lines bytes).flatten = bytes := by
  induction bytes with
  | nil => rfl
  | cons b rest ih =>
    have step : lines (b :: rest) = lineBefore b (lines rest) := rfl
    rw [step, flatten_lineBefore, ih]

def ofUtf8? (bytes : List UInt8) : Option String := String.fromUTF8? ⟨bytes.toArray⟩

end DecimalMachine.Text
