import DecimalMachine.Program.Entry

/-!
Where a program comes from: a named file, or the user's choice between a file and the keyboard.
-/

namespace DecimalMachine.Program

inductive LoadError where
  | read (path : String) (cause : IoError)
  | io (cause : IoError)
  deriving DecidableEq

def LoadError.message : LoadError → String
  | .read path cause => s!"cannot read {path}: {cause.message}"
  | .io cause => "I/O error: " ++ cause.message

abbrev FileReader := String → Except IoError (List UInt8)

variable {ι ω : Type}

def loadFile (files : FileReader) (path : String) : Dialogue ι ω LoadError Program := do
  match files path with
  | .error cause => throw (.read path cause)
  | .ok bytes =>
    match Text.ofUtf8? bytes with
    | none => throw (.read path .invalidUtf8)
    | some text =>
      let found := scanText text
      let program := found.program
      Console.noteAll found.events
      Console.note
        (if program.isEmpty then .emptyFile path else .loadedFile path program.words.length)
      return program

variable [Sink ω]

def nextLine : Dialogue Keyboard ω IoError String := fun ⟨input, output, journal⟩ =>
  match input with
  | [] => .ok "" ⟨[], output, journal⟩
  | line :: rest =>
    match Text.ofUtf8? line with
    | some text => .ok text ⟨rest, output, journal⟩
    | none => .error .invalidUtf8 ⟨rest, output, journal⟩

def isYes (answer : String) : Bool :=
  let answer := Text.trim answer
  answer == "y" || answer == "Y"

/-- Asks whether there is a file, and for its path if there is one. -/
def askForFile : Dialogue Keyboard ω IoError (Option String) := do
  Console.writeLine "*** Welcome to Simpletron V2! ***"
  Console.prompt "Do you have a file that contains your SML program? (Y/N): "
  if isYes (← nextLine) then
    Console.prompt "Please enter the filename containing your SML program: "
    return some (Text.trim (← nextLine))
  else return none

def loadPrompted (files : FileReader) : Dialogue Keyboard ω LoadError Program := do
  match ← askForFile.withError .io with
  | some path => loadFile files path
  | none => enter.withError .io

end DecimalMachine.Program
