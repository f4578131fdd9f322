import DecimalMachine.CommandLine.Files
import DecimalMachine.CommandLine.Invocation
import DecimalMachine.Console.Input
import DecimalMachine.Console.Transcript
import DecimalMachine.Program.Listing
import DecimalMachine.Saved

/-!
Commands: what an invocation writes, saves and answers with its exit status.

A command is prepared from its input alone. If it leaves a machine to be saved, its status is final
only when that file is written; `conclude` takes the outcome of writing it.
-/

namespace DecimalMachine

structure Ending where
  status : Nat
  output : Transcript
  stderr : List String := []
  /-- A file to be written, and its text. -/
  save : Option (String × String) := none

namespace Ending

def stdout (e : Ending) : String := e.output.text

def failed (output : Transcript) (complaint : String) : Ending :=
  { status := 1, output, stderr := ["❌ " ++ complaint] }

def conclude (e : Ending) (failure : Option IoError) : Ending :=
  match e.save, failure with
  | some (path, _), some error =>
    { e with
      status := 1
      stderr := e.stderr ++ [s!"❌ Failed to write state to {path}: {error.message}"]
      save := none }
  | _, _ => { e with save := none }

end Ending

namespace Command

def versionText : String := "simpletron 0.1.0\n"

def helpText : String :=
  "Usage: simpletron [COMMAND]\n\n" ++
  "Commands:\n" ++
  "  run [PROGRAM]   Run a program until it halts\n" ++
  "                    -q, --quiet              no line for each instruction\n" ++
  "                    -m, --max-cycles <N>     stop after this many instructions\n" ++
  "                    --state-json <PATH>      save the final machine\n" ++
  "  disasm PROGRAM  List a program as mnemonics\n" ++
  "  help            Show this text\n"

def abortStatus : Nat := 101

def console (stdin : List UInt8) (output : Transcript) : Console Program.Keyboard Transcript :=
  { input := Text.lines stdin, output }

def load (request : RunRequest) (files : Program.FileReader) :
    Dialogue Program.Keyboard Transcript Program.LoadError Program :=
  match request.program with
  | some path => Program.loadFile files path
  | none => Program.loadPrompted files

def endingOfRun (request : RunRequest) :
    EStateM.Result StepError (Session IntegerStream Transcript) Outcome → Ending
  | .ok outcome session =>
    { status := outcome.exitCode
      output := session.console.output
      save := request.stateFile.map fun path => (path, Json.write .indented session.machine) }
  | .error e session =>
    .failed session.console.output ("Execution error: " ++ e.message)

def runProgram (request : RunRequest) (program : Program)
    (console : Console Program.Keyboard Transcript) : Option Ending :=
  match Machine.fresh.loadProgram program.words with
  | .placed machine =>
    let console := ⟨⟨[], console.input⟩, console.output, console.journal⟩
    (execute request.config ⟨machine, console⟩).map (endingOfRun request)
  | .refused e => some (.failed console.output ("Failed to load program: " ++ e.message))
  | .aborted => some { status := abortStatus, output := console.output }

/-- Loads, confirms and runs a program. There is no ending if the run has no result. -/
def run (request : RunRequest) (stdin : List UInt8) (files : Program.FileReader)
    (output : Transcript) : Option Ending :=
  match load request files (console stdin output) with
  | .error e console => some (.failed console.output ("Failed to load program: " ++ e.message))
  | .ok program console =>
    match program.announce console with
    | .error e console => some (.failed console.output ("Output error: " ++ e.message))
    | .ok () console => runProgram request program console

/-- Lists a program. The listing is one text, and the process breaks off if it cannot be written. -/
def list (path : String) (files : Program.FileReader) (output : Transcript) : Ending :=
  match Program.loadFile files path (console [] output) with
  | .error e console => .failed console.output ("Failed to load program: " ++ e.message)
  | .ok program console =>
    let stderr := program.rejected.map Program.rejection
    match Console.write (Listing.text program.words) console with
    | .ok () console => { status := 0, output := console.output, stderr }
    | .error _ console => { status := abortStatus, output := console.output, stderr }

def notice (text : String) (output : Transcript) : Ending :=
  match Sink.write text output with
  | .ok _ output | .error _ output => { status := 0, output }

def prepare (invocation : Invocation) (stdin : List UInt8) (files : Program.FileReader)
    (output : Transcript) : Option Ending :=
  match invocation with
  | .run request => run request stdin files output
  | .list path => some (list path files output)
  | .help => some (notice helpText output)
  | .version => some (notice versionText output)

def misuse (output : Transcript) : Ending := { status := 2, output }

def prepareArguments (arguments : List String) (stdin : List UInt8) (files : Program.FileReader)
    (output : Transcript) : Option Ending :=
  match Invocation.parse? arguments with
  | none => some (misuse output)
  | some invocation => prepare invocation stdin files output

/-- Saves a text as a file, after which the ending is final. The output that a path leads to may
refuse the text like any other. -/
def saveIn (files : FileTree) (path text : String) (ending : Ending) : Ending × FileTree :=
  match files.destination path with
  | .error e => (ending.conclude (some e), files)
  | .ok (.file place) => (ending.conclude none, files.put place text.toUTF8.data.toList)
  | .ok .nowhere => (ending.conclude none, files)
  | .ok .output =>
    match Sink.write text ending.output with
    | .ok () output => ({ ending.conclude none with output }, files)
    | .error e _ => (ending.conclude (some e), files)
  | .ok .errors => ({ ending.conclude none with stderr := ending.stderr ++ [text] }, files)

def runIn (files : FileTree) (arguments : List String) (stdin : List UInt8)
    (output : Transcript) : Option (Ending × FileTree) := do
  let ending ← prepareArguments arguments stdin (files.withInput stdin).read output
  match ending.save with
  | none => return (ending, files)
  | some (path, text) => return saveIn (files.withInput stdin) path text ending

def namedFile? : Invocation → Option String
  | .list path => some path
  | .run request => request.program
  | _ => none

def askedFile? (invocation : Invocation) (stdin : List UInt8) : Option String :=
  match invocation with
  | .run { program := none, .. } =>
    match Program.askForFile (console stdin {}) with
    | .ok path _ => path
    | .error _ _ => none
  | _ => none

end Command

end DecimalMachine
