import DecimalMachine.Program
import DecimalMachine.Text.Line

/-!
Keyboard entry: a program typed one word per line, each line asked for by its location.

Entry ends with the sentinel, with the word that fills the page, or with the input. A line that is
no word is answered by a message, and its location is asked for again.
-/

namespace DecimalMachine.Program

abbrev Keyboard := List Text.Line

/-- The typed value that ends a program. -/
def sentinel : Int64 := -999999

inductive Entry where
  | word (word : Word)
  | sentinel
  | notInteger
  | outOfRange

def Entry.ofText (line : String) : Entry :=
  match Decimal.int64? (Text.trim line) with
  | none => .notInteger
  | some value =>
    if value = Program.sentinel then .sentinel
    else match Word.ofInt64 value with
      | .ok w => .word w
      | .error _ => .outOfRange

def locationNumeral : Decimal.Numeral := { width := 2 }

def entryPrompt (location : Nat) : String := locationNumeral.write location ++ " ? "

def entryHeading : List String :=
  ["*** Please enter your program one instruction (or data word) at a time ***",
    s!"*** Type {sentinel.toInt} to stop entering your program ***"]

variable {ω : Type} [Sink ω]

def leave (unread : Keyboard) : Dialogue Keyboard ω IoError Unit := fun ⟨_, output, journal⟩ =>
  .ok () ⟨unread, output, journal⟩

/-- Asks for further words behind those already entered, and reads them from the given lines. -/
def enterFrom (words : List Word) : Keyboard → Dialogue Keyboard ω IoError (List Word)
  | [] =>
    if capacity ≤ words.length then pure words
    else do
      Console.prompt (entryPrompt words.length)
      Console.note .entryAtEnd
      return words
  | line :: rest =>
    if capacity ≤ words.length then pure words
    else do
      Console.prompt (entryPrompt words.length)
      leave rest
      match Text.ofUtf8? line with
      | none => throw .invalidUtf8
      | some text =>
        match Entry.ofText text with
        | .word word => enterFrom (words ++ [word]) rest
        | .sentinel => return words
        | .notInteger =>
          Console.writeLine "Invalid input. Please enter a valid integer."
          enterFrom words rest
        | .outOfRange =>
          Console.writeLine
            "Invalid instruction. Please enter a number between -999999 and +999999."
          enterFrom words rest

def enter : Dialogue Keyboard ω IoError Program := do
  Console.writeLines entryHeading
  let words ← enterFrom [] (← get).input
  Console.note (.entered words.length)
  return { words }

end DecimalMachine.Program
