import DecimalMachine.Text.Decimal

/-!
JSON tokens: their one written form, and how a text is cut into them.

The cutter is fed one character at a time. A bare token (a number or a keyword) ends where a blank,
a bracket, a comma, a colon or a quote begins, and is judged as a whole.

A string that holds half of a surrogate pair is a token without a text, and a number that is no
integer is one without a value: nothing that is saved is written that way.
-/

namespace DecimalMachine.Json

/-- A string as it was understood; `none` if it holds half of a surrogate pair. -/
abbrev Literal := Option String

inductive Token where
  | openArray
  | closeArray
  | openObject
  | closeObject
  | comma
  | colon
  | null
  | bool (value : Bool)
  | integer (value : Int)
  /-- A number with a fraction or an exponent, or zero with a sign. -/
  | fraction
  | string (value : Literal)
  deriving DecidableEq

/-! ### Writing -/

def escaped (c : Char) : List Char :=
  match c with
  | '"' => ['\\', '"']
  | '\\' => ['\\', '\\']
  | '\x08' => ['\\', 'b']
  | '\x0c' => ['\\', 'f']
  | '\n' => ['\\', 'n']
  | '\r' => ['\\', 'r']
  | '\t' => ['\\', 't']
  | c =>
    if c.toNat < 0x20 then
      ['\\', 'u', '0', '0', Nat.digitChar (c.toNat / 16), Nat.digitChar (c.toNat % 16)]
    else [c]

def Token.chars : Token → List Char
  | .openArray => ['[']
  | .closeArray => [']']
  | .openObject => ['\x7b']
  | .closeObject => ['\x7d']
  | .comma => [',']
  | .colon => [':']
  | .null => ['n', 'u', 'l', 'l']
  | .bool true => ['t', 'r', 'u', 'e']
  | .bool false => ['f', 'a', 'l', 's', 'e']
  | .integer value => Decimal.Numeral.plain.chars value
  | .fraction => ['0', '.', '0']
  | .string (some value) => '"' :: (value.toList.flatMap escaped ++ ['"'])
  | .string none => ['"', '\\', 'u', 'd', '8', '0', '0', '"']

/-! ### Bare tokens -/

def isExponent : List Char → Bool
  | c :: '+' :: ds => (c == 'e' || c == 'E') && (Decimal.magnitude? ds).isSome
  | c :: '-' :: ds => (c == 'e' || c == 'E') && (Decimal.magnitude? ds).isSome
  | c :: ds => (c == 'e' || c == 'E') && (Decimal.magnitude? ds).isSome
  | [] => false

def isNumberTail : List Char → Bool
  | [] => true
  | '.' :: cs =>
    let rest := cs.dropWhile Char.isDigit
    (Decimal.magnitude? (cs.takeWhile Char.isDigit)).isSome && (rest.isEmpty || isExponent rest)
  | cs => isExponent cs

def isCanonical : List Char → Bool
  | [] => false
  | ['0'] => true
  | c :: cs => c != '0' && (c :: cs).all Char.isDigit

def unsigned? (negative : Bool) (cs : List Char) : Option Token :=
  let ds := cs.takeWhile Char.isDigit
  let rest := cs.dropWhile Char.isDigit
  if isCanonical ds && isNumberTail rest then
    let n := Nat.ofDigitChars 10 ds 0
    if !rest.isEmpty then some .fraction
    else if negative then if n = 0 then some .fraction else some (.integer (-(n : Int)))
    else some (.integer n)
  else none

def bare? : List Char → Option Token
  | ['n', 'u', 'l', 'l'] => some .null
  | ['t', 'r', 'u', 'e'] => some (.bool true)
  | ['f', 'a', 'l', 's', 'e'] => some (.bool false)
  | '-' :: cs => unsigned? true cs
  | cs => unsigned? false cs

/-! ### Strings -/

inductive Unit16 where
  | char (c : Char)
  | high (unit : Nat)
  | low (unit : Nat)
  deriving DecidableEq

def Unit16.ofNat (n : Nat) : Unit16 :=
  if 0xD800 ≤ n ∧ n < 0xDC00 then .high n
  else if 0xDC00 ≤ n ∧ n < 0xE000 then .low n
  else .char (Char.ofNat n)

def pair (high low : Nat) : Char := Char.ofNat (0x10000 + (high - 0xD800) * 0x400 + (low - 0xDC00))

def joined : List Unit16 → Option (List Char)
  | [] => some []
  | .char c :: rest => (joined rest).map (c :: ·)
  | .high high :: .low low :: rest => (joined rest).map (pair high low :: ·)
  | _ => none

def shortEscape? : Char → Option Char
  | '"' => some '"'
  | '\\' => some '\\'
  | '/' => some '/'
  | 'b' => some '\x08'
  | 'f' => some '\x0c'
  | 'n' => some '\n'
  | 'r' => some '\r'
  | 't' => some '\t'
  | _ => none

def hexDigit? (c : Char) : Option Nat :=
  if '0' ≤ c ∧ c ≤ '9' then some (c.toNat - '0'.toNat)
  else if 'a' ≤ c ∧ c ≤ 'f' then some (c.toNat - 'a'.toNat + 10)
  else if 'A' ≤ c ∧ c ≤ 'F' then some (c.toNat - 'A'.toNat + 10)
  else none

/-! ### Cutting -/

/-- Where the cutter stands between two characters. What was collected is the latest first. -/
inductive Mode where
  | between
  | bare (collected : List Char)
  | inString (collected : List Unit16)
  | escape (collected : List Unit16)
  | numbered (collected : List Unit16) (digits : List Nat)

structure Cutter where
  done : List Token := []
  mode : Mode := .between

def isSpace (c : Char) : Bool := c == ' ' || c == '\t' || c == '\n' || c == '\r'

def punctuation? : Char → Option Token
  | '[' => some .openArray
  | ']' => some .closeArray
  | '\x7b' => some .openObject
  | '\x7d' => some .closeObject
  | ',' => some .comma
  | ':' => some .colon
  | _ => none

namespace Cutter

def begin (done : List Token) (c : Char) : Cutter :=
  if isSpace c then ⟨done, .between⟩
  else if c = '"' then ⟨done, .inString []⟩
  else match punctuation? c with
    | some token => ⟨token :: done, .between⟩
    | none => ⟨done, .bare [c]⟩

def endsBare (c : Char) : Bool := isSpace c || c == '"' || (punctuation? c).isSome

def feed (cutter : Cutter) (c : Char) : Option Cutter :=
  let done := cutter.done
  match cutter.mode with
  | .between => some (begin done c)
  | .bare collected =>
    if endsBare c then (bare? collected.reverse).map fun token => begin (token :: done) c
    else some ⟨done, .bare (c :: collected)⟩
  | .inString collected =>
    if c = '"' then
      some ⟨.string ((joined collected.reverse).map String.ofList) :: done, .between⟩
    else if c = '\\' then some ⟨done, .escape collected⟩
    else if c.toNat < 0x20 then none
    else some ⟨done, .inString (.char c :: collected)⟩
  | .escape collected =>
    if c = 'u' then some ⟨done, .numbered collected []⟩
    else (shortEscape? c).map fun meant => ⟨done, .inString (.char meant :: collected)⟩
  | .numbered collected digits =>
    (hexDigit? c).map fun digit =>
      match digits with
      | [d₂, d₁, d₀] =>
        let number := ((d₀ * 16 + d₁) * 16 + d₂) * 16 + digit
        ⟨done, .inString (Unit16.ofNat number :: collected)⟩
      | _ => ⟨done, .numbered collected (digit :: digits)⟩

def feedAll (cutter : Cutter) : List Char → Option Cutter
  | [] => some cutter
  | c :: cs => (cutter.feed c).bind fun cutter => cutter.feedAll cs

def finish (cutter : Cutter) : Option (List Token) :=
  match cutter.mode with
  | .between => some cutter.done.reverse
  | .bare collected =>
    (bare? collected.reverse).map fun token => (token :: cutter.done).reverse
  | _ => none

end Cutter

def tokens? (cs : List Char) : Option (List Token) :=
  (Cutter.feedAll {} cs).bind Cutter.finish

end DecimalMachine.Json
