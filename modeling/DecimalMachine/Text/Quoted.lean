import DecimalMachine.Text.Hidden

/-!
Quoted texts, as they stand in journal messages: double quotes around the characters, a backslash
before a quote or a backslash, short escapes for the common controls, and the code point in braces
for every other hidden character.
-/

namespace DecimalMachine.Text

def escaped (c : Char) : List Char :=
  match c with
  | '\x00' => ['\\', '0']
  | '\t' => ['\\', 't']
  | '\r' => ['\\', 'r']
  | '\n' => ['\\', 'n']
  | '\\' => ['\\', '\\']
  | '"' => ['\\', '"']
  | c =>
    if isHidden c then ['\\', 'u', '\x7b'] ++ Nat.toDigits 16 c.toNat ++ ['\x7d'] else [c]

def quotedChars (cs : List Char) : List Char := '"' :: (cs.flatMap escaped ++ ['"'])

def quoted (text : String) : String := String.ofList (quotedChars text.toList)

end DecimalMachine.Text
