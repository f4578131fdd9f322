import DecimalMachine.Json.Token

/-!
JSON values, read from tokens.

The reader is fed one token at a time. What is open around the token lies in a list of frames, so
that depth costs no recursion. `complete` hands a finished value to the innermost frame.
-/

namespace DecimalMachine.Json

inductive Value where
  | null
  | bool (value : Bool)
  | integer (value : Int)
  | fraction
  | string (value : Literal)
  | array (items : List Value)
  | object (fields : List (Literal × Value))

/-- A container that waits for a value. What it holds already is the latest first. -/
inductive Frame where
  | item (items : List Value)
  | member (fields : List (Literal × Value)) (key : Literal)

/-- What may come next, inside which containers. -/
inductive Reader where
  | value (frames : List Frame)
  | firstItem (outer : List Frame)
  | afterItem (items : List Value) (outer : List Frame)
  | firstKey (outer : List Frame)
  | nextKey (fields : List (Literal × Value)) (outer : List Frame)
  | colon (fields : List (Literal × Value)) (key : Literal) (outer : List Frame)
  | afterMember (fields : List (Literal × Value)) (outer : List Frame)
  | finished (value : Value)

namespace Reader

def complete (v : Value) : List Frame → Reader
  | [] => .finished v
  | .item items :: outer => .afterItem (v :: items) outer
  | .member fields key :: outer => .afterMember ((key, v) :: fields) outer

def start (frames : List Frame) : Token → Option Reader
  | .null => some (complete .null frames)
  | .bool b => some (complete (.bool b) frames)
  | .integer z => some (complete (.integer z) frames)
  | .fraction => some (complete .fraction frames)
  | .string s => some (complete (.string s) frames)
  | .openArray => some (.firstItem frames)
  | .openObject => some (.firstKey frames)
  | _ => none

def feed : Reader → Token → Option Reader
  | .value frames, token => start frames token
  | .firstItem outer, .closeArray => some (complete (.array []) outer)
  | .firstItem outer, token => start (.item [] :: outer) token
  | .afterItem items outer, .comma => some (.value (.item items :: outer))
  | .afterItem items outer, .closeArray => some (complete (.array items.reverse) outer)
  | .firstKey outer, .closeObject => some (complete (.object []) outer)
  | .firstKey outer, .string key => some (.colon [] key outer)
  | .nextKey fields outer, .string key => some (.colon fields key outer)
  | .colon fields key outer, .colon => some (.value (.member fields key :: outer))
  | .afterMember fields outer, .comma => some (.nextKey fields outer)
  | .afterMember fields outer, .closeObject => some (complete (.object fields.reverse) outer)
  | _, _ => none

def feedAll (reader : Reader) : List Token → Option Reader
  | [] => some reader
  | token :: rest => (reader.feed token).bind fun reader => reader.feedAll rest

def value? : Reader → Option Value
  | .finished v => some v
  | _ => none

end Reader

namespace Value

def ofTokens? (tokens : List Token) : Option Value :=
  (Reader.feedAll (.value []) tokens).bind Reader.value?

def parse? (text : String) : Option Value := (tokens? text.toList).bind ofTokens?

end Value

end DecimalMachine.Json
