import DecimalMachine.Instruction
import DecimalMachine.Text.Columns

/-!
Program listings: each word as a mnemonic with the part of its operand that the operation uses, and
the word itself behind it.
-/

namespace DecimalMachine

open Decimal (Numeral)

def Word.mnemonicText (w : Word) : String :=
  let i := Instruction.ofWord w
  let name := i.opcode.mnemonic
  match i.opcode with
  | .unknown _ => name ++ " ; " ++ w.text
  | .loadImmediate => name ++ " " ++ Numeral.plain.write w.immediate.value
  | .halt =>
    let (first, last) := i.haltPages
    let page : Numeral := { width := 2 }
    name ++ " " ++ page.write first.toNat ++ "-" ++ page.write last.toNat
  | .increment | .decrement | .swap => name
  | op =>
    if op.isIndexed then name
    else name ++ " " ++ Instruction.operandNumeral.write i.operand.toNat

namespace Listing

def locationNumeral : Numeral := { width := 2 }

def mnemonicWidth : Nat := 16

def heading : String := "; Simpletron Disassembly\n; ----------------------\n\n"

def line (location : Nat) (w : Word) : String :=
  locationNumeral.write location ++ ": " ++ Text.padRight mnemonicWidth w.mnemonicText ++ " ; " ++
    w.text ++ "\n"

def body : Nat → List Word → String
  | _, [] => ""
  | location, w :: ws => line location w ++ body (location + 1) ws

def text (words : List Word) : String := heading ++ body 0 words

end Listing

end DecimalMachine
