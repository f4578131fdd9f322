import DecimalMachine.Console

/-!
The transcript: a sink that keeps what was written, and may close after a number of lines.

A limited transcript accepts everything until it holds that many newlines, and refuses each write
after that. Flushing never fails.
-/

namespace DecimalMachine

structure Transcript where
  text : String := ""
  /-- Newlines written since the limit was set. -/
  lines : Nat := 0
  limit : Option Nat := none
  refusal : IoError := .outputClosed

namespace Transcript

def isClosed (t : Transcript) : Bool :=
  match t.limit with
  | none => false
  | some limit => limit ≤ t.lines

def newlines (text : String) : Nat := text.toList.count '\n'

def append : Transcript → String → Transcript
  | ⟨text, lines, limit, refusal⟩, more => ⟨text ++ more, lines + newlines more, limit, refusal⟩

def withLimit (t : Transcript) (limit : Option Nat) : Transcript := { t with limit, lines := 0 }

end Transcript

instance : Sink Transcript where
  write more := fun t => if t.isClosed then .error t.refusal t else .ok () (t.append more)
  flush := pure ()

end DecimalMachine
