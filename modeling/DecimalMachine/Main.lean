import DecimalMachine.CommandLine.Command

/-!
The program on the command line: it reads the input and the program file, carries out the command,
and writes what the command leaves behind.
-/

namespace DecimalMachine.Shell

def systemError (number : UInt32) (text : String) : IoError :=
  match number.toInt32.toInt.natAbs with
  | 2 => .notFound
  | 20 => .notDirectory
  | 21 => .isDirectory
  | 28 => .noSpace
  | n => .system n text

def ioError : IO.Error → IoError
  | .noFileOrDirectory _ number text => systemError number text
  | .inappropriateType _ number text => systemError number text
  | .permissionDenied _ number text => systemError number text
  | .resourceExhausted _ number text => systemError number text
  | .alreadyExists _ number text => systemError number text
  | .invalidArgument _ number text => systemError number text
  | .otherError number text => systemError number text
  | error => .system 5 error.toString

def failureOf (act : IO Unit) : IO (Option IoError) := do
  try
    act
    return none
  catch error => return some (ioError error)

def readFile (path : String) : IO (Except IoError (List UInt8)) := do
  try
    return .ok (← IO.FS.readBinFile path).data.toList
  catch error => return .error (ioError error)

def printOut (text : String) : IO Unit := do
  let stdout ← IO.getStdout
  stdout.putStr text
  stdout.flush

/-- Prints what a command writes. An output that refuses the text is one that was closed. -/
def printed (prepare : Transcript → Option Ending) : IO (Option Ending) := do
  match prepare {} with
  | none => return none
  | some ending =>
    match ← failureOf (printOut ending.stdout) with
    | none => return some ending
    | some refusal => return prepare { limit := some 0, refusal }

def writeFile (path text : String) : IO Unit :=
  IO.FS.withFile path .write fun file => do
    file.putStr text
    file.flush

def saved (ending : Ending) : IO Ending := do
  match ending.save with
  | none => return ending
  | some (path, text) => return ending.conclude (← failureOf (writeFile path text))

def readsInput : Invocation → Bool
  | .run _ => true
  | _ => false

/-- Carries out an invocation; there is no ending if it has no end. A file that is named is read
before the input, which it may be itself. -/
def perform (invocation : Invocation) : IO (Option Ending) := do
  let named ← (Command.namedFile? invocation).mapM readFile
  let stdin ← if readsInput invocation then (← IO.getStdin).readBinToEnd else pure .empty
  let stdin := stdin.data.toList
  let asked ← (Command.askedFile? invocation stdin).mapM readFile
  let file := named <|> asked
  let files := fun _ => file.getD (.error .notFound)
  (← printed (Command.prepare invocation stdin files)).mapM saved

end DecimalMachine.Shell

open DecimalMachine in
def main (arguments : List String) : IO UInt32 := do
  let ending ← match Invocation.parse? arguments with
    | none => pure (some (Command.misuse {}))
    | some invocation => Shell.perform invocation
  match ending with
  | none => return 1
  | some ending =>
    ending.stderr.forM fun line => IO.eprintln line
    return ending.status.toUInt32
