import DecimalMachine.Json.Printer

/-!
Saved forms: how values of other types are written as JSON values and read back.

A record is an object of its fields. It is also read from an array of exactly its fields; in an
object, unknown fields are passed over, and each known one must occur once. A variant without
content is its name, also read from an object that gives the name a null; one with content is an
object with the name as its only key.
-/

namespace DecimalMachine.Json

class Codec (α : Type) where
  encode : α → Value
  decode : Value → Option α

/-- The value of a field that occurs once. -/
def field? (fields : List (Literal × Value)) (name : String) : Option Value :=
  match fields.filter fun field => field.1 == some name with
  | [(_, v)] => some v
  | _ => none

def fields? (names : List String) : Value → Option (List Value)
  | .array items => if items.length = names.length then some items else none
  | .object fields =>
    if fields.all fun field => field.1.isSome then names.mapM (field? fields) else none
  | _ => none

def variant? : Value → Option (String × Option Value)
  | .string (some name) => some (name, none)
  | .object [(some name, content)] => some (name, some content)
  | _ => none

/-- Whether the content of a variant may be missing, or is null. -/
def isUnit : Option Value → Bool
  | none => true
  | some .null => true
  | some _ => false

def ofFields (fields : List (String × Value)) : Value :=
  .object (fields.map fun field => (some field.1, field.2))

def ofName (name : String) : Value := .string (some name)

def ofVariant (name : String) (content : Value) : Value := ofFields [(name, content)]

def integerIn? (low high : Int) : Value → Option Int
  | .integer z => if low ≤ z ∧ z ≤ high then some z else none
  | _ => none

def write {α : Type} [Codec α] (layout : Layout) (a : α) : String :=
  (Codec.encode a).render layout

def read? {α : Type} [Codec α] (text : String) : Option α :=
  (Value.parse? text).bind Codec.decode

instance : Codec Bool where
  encode b := .bool b
  decode
    | .bool b => some b
    | _ => none

instance : Codec UInt8 where
  encode n := .integer n.toNat
  decode v := (integerIn? 0 255 v).map fun z => UInt8.ofNat z.toNat

instance : Codec UInt16 where
  encode n := .integer n.toNat
  decode v := (integerIn? 0 65535 v).map fun z => UInt16.ofNat z.toNat

instance : Codec UInt64 where
  encode n := .integer n.toNat
  decode v := (integerIn? 0 18446744073709551615 v).map fun z => UInt64.ofNat z.toNat

instance : Codec Int32 where
  encode n := .integer n.toInt
  decode v := (integerIn? (-2147483648) 2147483647 v).map Int32.ofInt

instance : Codec Int64 where
  encode n := .integer n.toInt
  decode v := (integerIn? (-9223372036854775808) 9223372036854775807 v).map Int64.ofInt

end DecimalMachine.Json
