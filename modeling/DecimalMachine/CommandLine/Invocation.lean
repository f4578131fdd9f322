import DecimalMachine.Report

/-!
Invocations: what the arguments of a command line ask for.

Arguments are judged from left to right, and the first one that is wrong, or that asks for help or
for the version, decides. Options are not abbreviated and not repeated; short ones may be joined,
and the value of an option follows it as an argument of its own, or in the same one.
-/

namespace DecimalMachine

structure RunRequest where
  program : Option String := none
  config : Config := {}
  stateFile : Option String := none

inductive Invocation where
  | run (request : RunRequest)
  | list (program : String)
  | help
  | version

namespace Invocation

/-- Why the arguments are not read to their end. -/
inductive Stop where
  | help
  | version
  | usage

inductive Waiting where
  | maxCycles
  | stateFile

structure RunArguments where
  program : Option String := none
  quiet : Bool := false
  maxCycles : Option UInt64 := none
  stateFile : Option String := none
  waiting : Option Waiting := none
  plain : Bool := false

namespace RunArguments

def beQuiet (a : RunArguments) : Except Stop RunArguments :=
  if a.quiet then .error .usage else .ok { a with quiet := true }

def setMaxCycles (a : RunArguments) (value : String) : Except Stop RunArguments :=
  match a.maxCycles, Decimal.uint64? value with
  | none, some max => .ok { a with maxCycles := some max, waiting := none }
  | _, _ => .error .usage

def setStateFile (a : RunArguments) (value : String) : Except Stop RunArguments :=
  if a.stateFile.isSome || value.isEmpty then .error .usage
  else .ok { a with stateFile := some value, waiting := none }

def setProgram (a : RunArguments) (value : String) : Except Stop RunArguments :=
  if a.program.isSome then .error .usage else .ok { a with program := some value }

def setWaiting (a : RunArguments) (value : String) : Waiting → Except Stop RunArguments
  | .maxCycles => a.setMaxCycles value
  | .stateFile => a.setStateFile value

/-- Joined short options. What follows an option that takes a value is its value. -/
def short (a : RunArguments) : List Char → Except Stop RunArguments
  | [] => .ok a
  | 'q' :: rest => (a.beQuiet).bind fun a => a.short rest
  | ['m'] => .ok { a with waiting := some .maxCycles }
  | 'm' :: '=' :: value => a.setMaxCycles (String.ofList value)
  | 'm' :: value => a.setMaxCycles (String.ofList value)
  | 'h' :: _ => .error .help
  | _ => .error .usage

def long (a : RunArguments) : String → Option String → Except Stop RunArguments
  | "quiet", none => a.beQuiet
  | "help", none => .error .help
  | "max-cycles", none => .ok { a with waiting := some .maxCycles }
  | "max-cycles", some value => a.setMaxCycles value
  | "state-json", none => .ok { a with waiting := some .stateFile }
  | "state-json", some value => a.setStateFile value
  | _, _ => .error .usage

end RunArguments

inductive Form where
  | plain
  | options
  | long (name : String) (value : Option String)
  | short (letters : List Char)

def Form.of (argument : String) : Form :=
  match argument.toList with
  | ['-', '-'] => .options
  | '-' :: '-' :: cs =>
    match cs.dropWhile (· != '=') with
    | [] => .long (String.ofList cs) none
    | _ :: value => .long (String.ofList (cs.takeWhile (· != '='))) (some (String.ofList value))
  | '-' :: c :: cs => .short (c :: cs)
  | _ => .plain

/-- One more argument of `run`. A waiting option takes it, unless it is written as an option. -/
def RunArguments.next (a : RunArguments) (argument : String) : Except Stop RunArguments :=
  if a.plain then a.setProgram argument
  else match a.waiting, Form.of argument with
    | some option, .plain => a.setWaiting argument option
    | some _, _ => .error .usage
    | none, .plain => a.setProgram argument
    | none, .options => .ok { a with plain := true }
    | none, .long name value => a.long name value
    | none, .short letters => a.short letters

def RunArguments.all (a : RunArguments) : List String → Except Stop RunArguments
  | [] => if a.waiting.isSome then .error .usage else .ok a
  | argument :: rest => (a.next argument).bind fun a => a.all rest

def ofRun (arguments : List String) : Except Stop Invocation :=
  (RunArguments.all {} arguments).map fun a =>
    .run { program := a.program, config := ⟨!a.quiet, a.maxCycles⟩, stateFile := a.stateFile }

def ofList (program : Option String) (plain : Bool) : List String → Except Stop Invocation
  | [] => match program with
    | some program => .ok (.list program)
    | none => .error .usage
  | argument :: rest =>
    match plain, Form.of argument, program with
    | false, .options, _ => ofList program true rest
    | false, .long "help" none, _ => .error .help
    | false, .short ('h' :: _), _ => .error .help
    | false, .long _ _, _ => .error .usage
    | false, .short _, _ => .error .usage
    | _, _, none => ofList (some argument) plain rest
    | _, _, some _ => .error .usage

def ofHelp : List String → Except Stop Invocation
  | [] => .error .help
  | [command] => .error (if ["run", "disasm", "help"].contains command then .help else .usage)
  | _ => .error .usage

def ofArguments : List String → Except Stop Invocation
  | [] => .ok (.run {})
  | "run" :: rest => ofRun rest
  | "disasm" :: rest => ofList none false rest
  | "help" :: rest => ofHelp rest
  | argument :: rest =>
    match Form.of argument with
    | .options => if rest.isEmpty then .ok (.run {}) else .error .usage
    | .long "help" none | .short ('h' :: _) => .error .help
    | .long "version" none | .short ('V' :: _) => .error .version
    | _ => .error .usage

def parse? (arguments : List String) : Option Invocation :=
  match ofArguments arguments with
  | .ok invocation => some invocation
  | .error .help => some .help
  | .error .version => some .version
  | .error .usage => none

end Invocation

end DecimalMachine
