import DecimalMachine.Json.Codec
import DecimalMachine.Machine

/-!
The saved form of the machine and of its parts.

Integers keep the ranges of their fields, and words the range of words. A memory may be saved and
restored with any number of cells.
-/

namespace DecimalMachine

open Json (Codec Value ofFields ofName ofVariant fields? variant? isUnit)
open Json.Codec (encode decode)

instance : Codec Word where
  encode w := .integer w.value
  decode
    | .integer z => Word.ofInt? z
    | _ => none

instance : Codec Opcode where
  encode
    | .unknown code => ofVariant "Unknown" (encode code)
    | op => ofName op.name
  decode v := do
    let (name, content) ← variant? v
    if name = "Unknown" then return .unknown (← decode (← content))
    let op ← Opcode.all.find? fun op => op.name == name
    if isUnit content then some op else none

instance : Codec Instruction where
  encode i := ofFields [("opcode", encode i.opcode), ("operand", encode i.operand)]
  decode v := do
    match ← fields? ["opcode", "operand"] v with
    | [opcode, operand] => return ⟨← decode opcode, ← decode operand⟩
    | _ => none

instance : Codec Registers where
  encode r := ofFields [("accumulator", encode r.accumulator), ("index", encode r.index),
    ("counter", encode r.counter), ("instruction", encode r.instruction)]
  decode v := do
    match ← fields? ["accumulator", "index", "counter", "instruction"] v with
    | [accumulator, index, counter, instruction] =>
      return ⟨← decode accumulator, ← decode index, ← decode counter, ← decode instruction⟩
    | _ => none

instance : Codec Memory where
  encode m := ofFields [("cells", .array (m.cells.toList.map encode))]
  decode v := do
    match ← fields? ["cells"] v with
    | [.array items] => return ⟨(← items.mapM decode).toArray⟩
    | _ => none

def Fault.decodeWith {α : Type} [Codec α] (name : String) (make : α → UInt64 → Fault)
    (content : Value) : Option Fault := do
  match ← fields? [name, "location"] content with
  | [payload, location] => return make (← decode payload) (← decode location)
  | _ => none

def Fault.decodeAt (make : UInt64 → Fault) (content : Value) : Option Fault := do
  match ← fields? ["location"] content with
  | [location] => return make (← decode location)
  | _ => none

instance : Codec Fault where
  encode f := ofVariant f.name (ofFields (f.fields.map fun field => (field.1, .integer field.2)))
  decode v := do
    match ← variant? v with
    | ("UnknownOpcode", some content) => Fault.decodeWith "code" .unknownOpcode content
    | ("OutOfRange", some content) => Fault.decodeWith "address" .outOfRange content
    | ("DivisionByZero", some content) => Fault.decodeAt .divisionByZero content
    | ("AccumulatorOverflow", some content) => Fault.decodeWith "value" .accumulatorOverflow content
    | ("InvalidInput", some content) => Fault.decodeWith "value" .invalidInput content
    | ("InputExhausted", some content) => Fault.decodeAt .inputExhausted content
    | _ => none

instance : Codec State where
  encode
    | .running => ofName "Running"
    | .halted first last =>
      ofVariant "Halted" (ofFields [("start_page", encode first), ("end_page", encode last)])
    | .faulted fault => ofVariant "Faulted" (encode fault)
  decode v := do
    match ← variant? v with
    | ("Running", content) => if isUnit content then some .running else none
    | ("Halted", some content) =>
      match ← fields? ["start_page", "end_page"] content with
      | [first, last] => return .halted (← decode first) (← decode last)
      | _ => none
    | ("Faulted", some content) => return .faulted (← decode content)
    | _ => none

instance : Codec Machine where
  encode m := ofFields [("regs", encode m.registers), ("mem", encode m.memory),
    ("state", encode m.state), ("cycles", encode m.cycles), ("trace", encode m.trace)]
  decode v := do
    match ← fields? ["regs", "mem", "state", "cycles", "trace"] v with
    | [registers, memory, state, cycles, trace] =>
      return ⟨← decode registers, ← decode memory, ← decode state, ← decode cycles,
        ← decode trace⟩
    | _ => none

end DecimalMachine
