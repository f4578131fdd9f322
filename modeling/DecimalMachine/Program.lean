import DecimalMachine.Console
import DecimalMachine.Text.Blank

/-!
Programs, and how the text of one is read.

A program fills at most the first page. In a text, every blank-separated token that is an integer
counts; the others are passed over. An integer that is no word is rejected and takes no room.
-/

namespace DecimalMachine

structure Program where
  words : List Word := []
  /-- The integers that are no words. -/
  rejected : List Int64 := []

namespace Program

def capacity : Nat := Memory.pageSize

def isEmpty (p : Program) : Bool := p.words.isEmpty

def rejection (value : Int64) : String :=
  "Invalid instruction: " ++ Decimal.Numeral.plain.write value.toInt

def announcement (p : Program) : List String :=
  p.rejected.map rejection ++ ["Program loaded successfully."]

def announce {ι ω : Type} [Sink ω] (p : Program) : Dialogue ι ω IoError Unit :=
  Console.writeLines p.announcement

structure Scan where
  program : Program := {}
  events : List Event := []

namespace Scan

def accept (word : Word) (scan : Scan) : Scan :=
  { scan with program := { scan.program with words := word :: scan.program.words } }

def reject (value : Int64) (scan : Scan) : Scan :=
  { program := { scan.program with rejected := value :: scan.program.rejected }
    events := .rejectedValue value :: scan.events }

def skip (token : String) (scan : Scan) : Scan :=
  { scan with events := .skippedToken token :: scan.events }

end Scan

/-- Reads tokens as long as there is room for another word. -/
def scan : Nat → List String → Scan
  | _, [] => {}
  | 0, _ :: _ => { events := [.programFull capacity] }
  | room + 1, token :: rest =>
    match Decimal.int64? token with
    | none => (scan (room + 1) rest).skip token
    | some value =>
      match Word.ofInt64 value with
      | .ok word => (scan room rest).accept word
      | .error _ => (scan (room + 1) rest).reject value

def scanText (text : String) : Scan := scan capacity (Text.tokens text)

def ofText (text : String) : Program := (scanText text).program

end Program

end DecimalMachine
