import DecimalMachine.Journal

/-!
The console: a source of integers, a sink for text, and the journal.

Sources and sinks are arbitrary state types. A read may give a value, the end of the input or a
failure, and a write may fail at any time; either way the state goes on. An action on the console
is a function of its state that keeps the state when it fails.
-/

namespace DecimalMachine

inductive IoError where
  | invalidUtf8
  | outputClosed
  | nulInPath
  | system (number : Nat) (text : String)
  deriving DecidableEq

namespace IoError

def message : IoError → String
  | .invalidUtf8 => "stream did not contain valid UTF-8"
  | .outputClosed => "output closed"
  | .nulInPath => "file name contained an unexpected NUL byte"
  | .system number text => s!"{text} (os error {number})"

def notFound : IoError := .system 2 "No such file or directory"

def noDevice : IoError := .system 6 "No such device or address"

def notDirectory : IoError := .system 20 "Not a directory"

def isDirectory : IoError := .system 21 "Is a directory"

def nameTooLong : IoError := .system 36 "File name too long"

def noSpace : IoError := .system 28 "No space left on device"

end IoError

structure Reading where
  /-- The next value, the end of the source, or its failure. -/
  outcome : Except IoError (Option Int64)
  skipped : List String := []

class Source (ι : Type) where
  read : ι → Reading × ι

class Sink (ω : Type) where
  write : String → EStateM IoError ω Unit
  flush : EStateM IoError ω Unit

structure Console (ι ω : Type) where
  input : ι
  output : ω
  journal : Journal := {}

/-- An action on a console that may fail with an `ε`. -/
abbrev Dialogue (ι ω ε α : Type) := EStateM ε (Console ι ω) α

namespace Console

variable {ι ω ε α : Type}

def note (e : Event) : Dialogue ι ω ε Unit := fun ⟨input, output, journal⟩ =>
  .ok () ⟨input, output, journal.note e⟩

def noteAll (es : List Event) : Dialogue ι ω ε Unit := fun ⟨input, output, journal⟩ =>
  .ok () ⟨input, output, journal.noteAll es⟩

def onOutput (act : EStateM IoError ω α) : Dialogue ι ω IoError α :=
  fun ⟨input, output, journal⟩ =>
    match act output with
    | .ok a output => .ok a ⟨input, output, journal⟩
    | .error e output => .error e ⟨input, output, journal⟩

def write [Sink ω] (text : String) : Dialogue ι ω IoError Unit := onOutput (Sink.write text)

def flush [Sink ω] : Dialogue ι ω IoError Unit := onOutput Sink.flush

def writeLine [Sink ω] (text : String) : Dialogue ι ω IoError Unit := write (text ++ "\n")

def writeLines [Sink ω] : List String → Dialogue ι ω IoError Unit
  | [] => pure ()
  | line :: rest => do
    writeLine line
    writeLines rest

def prompt [Sink ω] (text : String) : Dialogue ι ω IoError Unit := do
  write text
  flush

def read [Source ι] : Dialogue ι ω IoError (Option Int64) := fun ⟨input, output, journal⟩ =>
  let (reading, input) := Source.read input
  let console := ⟨input, output, journal.noteAll (reading.skipped.map .ignoredInput)⟩
  match reading.outcome with
  | .ok value => .ok value console
  | .error e => .error e console

end Console

def Dialogue.withError {ι ω ε ε' α : Type} (f : ε → ε') (act : Dialogue ι ω ε α) :
    Dialogue ι ω ε' α := fun console =>
  match act console with
  | .ok a console => .ok a console
  | .error e console => .error (f e) console

end DecimalMachine
