import DecimalMachine.Machine
import DecimalMachine.Text.Quoted

/-!
The journal: what a run or a loader found worth noting, apart from the console.

Events are kept as data. A journal with a threshold keeps the events of that level and the more
severe ones; one without a threshold keeps none.
-/

namespace DecimalMachine

inductive Level where
  | warn
  | info
  | debug
  | trace
  deriving DecidableEq

namespace Level

def depth : Level → Nat
  | .warn => 0
  | .info => 1
  | .debug => 2
  | .trace => 3

def name : Level → String
  | .warn => "WARN"
  | .info => "INFO"
  | .debug => "DEBUG"
  | .trace => "TRACE"

end Level

inductive Event where
  | fetched (location : UInt64) (word : Word)
  | faulted (fault : Fault)
  /-- A `HALT`, itself counted in `cycles`. -/
  | halted (location cycles : UInt64)
  | ignoredInput (token : String)
  | skippedToken (token : String)
  | rejectedValue (value : Int64)
  | programFull (capacity : Nat)
  | emptyFile (path : String)
  | loadedFile (path : String) (size : Nat)
  | entryAtEnd
  | entered (size : Nat)

namespace Event

def level : Event → Level
  | .fetched .. => .trace
  | .faulted _ => .warn
  | .halted .. => .info
  | .ignoredInput _ => .warn
  | .skippedToken _ => .debug
  | .rejectedValue _ => .warn
  | .programFull _ => .debug
  | .emptyFile _ => .warn
  | .loadedFile .. => .info
  | .entryAtEnd => .debug
  | .entered _ => .info

def message : Event → String
  | .fetched location word =>
    Fault.locationText location ++ ": " ++ word.text ++ " " ++ (Instruction.ofWord word).describe
  | .faulted fault => fault.message
  | .halted location cycles =>
    "halted at " ++ Fault.locationText location ++ s!" after {cycles.toNat} cycles"
  | .ignoredInput token => "ignoring non-integer input " ++ Text.quoted token
  | .skippedToken token => "skipping non-integer token " ++ Text.quoted token
  | .rejectedValue value => (WordError.outOfRange value).message
  | .programFull capacity => s!"program full at {capacity} words, ignoring the rest"
  | .emptyFile path => path ++ " holds no program words"
  | .loadedFile path size => s!"loaded {size} words from {path}"
  | .entryAtEnd => "end of input during program entry"
  | .entered size => s!"entered {size} words"

end Event

structure Journal where
  threshold : Option Level := none
  /-- The kept events, the latest first. -/
  kept : List Event := []

namespace Journal

def keeps (j : Journal) (e : Event) : Bool :=
  match j.threshold with
  | none => false
  | some threshold => e.level.depth ≤ threshold.depth

def note (j : Journal) (e : Event) : Journal :=
  if j.keeps e then { j with kept := e :: j.kept } else j

def noteAll (j : Journal) (es : List Event) : Journal := es.foldl note j

def lines (j : Journal) : List String :=
  j.kept.reverse.map fun e => e.level.name ++ " " ++ e.message

end Journal

end DecimalMachine
