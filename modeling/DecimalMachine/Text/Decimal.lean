/-!
Decimal numerals: how integers are written in columns and how a token is read as an integer.

A `Numeral` says whether a plus sign is written and how many columns are filled with zeros. Reading
accepts one optional sign and ASCII digits, with any number of leading zeros; `int64?` and `uint64?`
add the range of a machine integer. Grouping, exponents and other digits than `0`–`9` are not read.

`integer?_chars` says that an integer is read back from every form in which it is written.
-/

namespace DecimalMachine.Decimal

/-- The columns of a written integer. The sign takes one of the `width` columns. -/
structure Numeral where
  plus : Bool := false
  width : Nat := 0

def Numeral.plain : Numeral := {}

def Numeral.sign (form : Numeral) (z : Int) : List Char :=
  if z < 0 then ['-'] else if form.plus then ['+'] else []

def digits (n : Nat) : List Char := Nat.toDigits 10 n

/-- Sign, zeros up to the width, digits. A numeral that is wider than its columns is not cut. -/
def Numeral.chars (form : Numeral) (z : Int) : List Char :=
  let sign := form.sign z
  let ds := digits z.natAbs
  sign ++ List.replicate (form.width - (sign.length + ds.length)) '0' ++ ds

def Numeral.write (form : Numeral) (z : Int) : String := String.ofList (form.chars z)

def magnitude? (cs : List Char) : Option Nat :=
  if cs.isEmpty then none
  else if cs.all Char.isDigit then some (Nat.ofDigitChars 10 cs 0)
  else none

def integer? : List Char → Option Int
  | '-' :: cs => (magnitude? cs).map fun n => -(n : Int)
  | '+' :: cs => (magnitude? cs).map fun n => (n : Int)
  | cs => (magnitude? cs).map fun n => (n : Int)

theorem magnitude?_zeros_digits (k n : Nat) :
    magnitude? (List.replicate k '0' ++ digits n) = some n := by
  have nonempty : (List.replicate k '0' ++ digits n).isEmpty = false := by
    simp [digits, Nat.toDigits_ne_nil]
  have isDigits : (List.replicate k '0' ++ digits n).all Char.isDigit = true := by
    simp only [List.all_eq_true, List.mem_append, List.mem_replicate]
    rintro c (⟨_, rfl⟩ | mem)
    · rfl
    · exact Nat.isDigit_of_mem_toDigits (by decide) (by decide) mem
  have value : Nat.ofDigitChars 10 (List.replicate k '0' ++ digits n) 0 = n := by
    rw [Nat.ofDigitChars_append, Nat.ofDigitChars_replicate_zero, Nat.mul_zero, digits]
    exact Nat.ofDigitChars_ten_toDigits
  simp [magnitude?, nonempty, isDigits, value]

theorem integer?_of_magnitude? {cs : List Char} {n : Nat} (h : magnitude? cs = some n) :
    integer? cs = some (n : Int) := by
  unfold integer?
  split
  · simp [magnitude?] at h
  · simp [magnitude?] at h
  · simp [h]

theorem integer?_chars (form : Numeral) (z : Int) : integer? (form.chars z) = some z := by
  have parts : form.chars z = form.sign z ++
      (List.replicate (form.width - ((form.sign z).length + (digits z.natAbs).length)) '0' ++
        digits z.natAbs) := List.append_assoc ..
  rw [parts]
  by_cases negative : z < 0
  · have value : -(z.natAbs : Int) = z := by omega
    have sign : form.sign z = ['-'] := if_pos negative
    simp only [sign, List.cons_append, List.nil_append, integer?, magnitude?_zeros_digits]
    exact congrArg some value
  · have value : (z.natAbs : Int) = z := by omega
    by_cases plus : form.plus = true
    · have sign : form.sign z = ['+'] := by
        simp only [Numeral.sign, negative, plus, if_true, if_false]
      simp only [sign, List.cons_append, List.nil_append, integer?, magnitude?_zeros_digits]
      exact congrArg some value
    · have sign : form.sign z = [] := by simp only [Numeral.sign, negative, plus, if_false]; rfl
      rw [sign, List.nil_append, integer?_of_magnitude? (magnitude?_zeros_digits ..)]
      exact congrArg some value

def toInt64? (z : Int) : Option Int64 :=
  if -9223372036854775808 ≤ z ∧ z ≤ 9223372036854775807 then some (Int64.ofInt z) else none

def toUInt64? (n : Nat) : Option UInt64 :=
  if n ≤ 18446744073709551615 then some (UInt64.ofNat n) else none

def int64? (token : String) : Option Int64 := (integer? token.toList).bind toInt64?

/-- A token that is an unsigned 64-bit integer; it may carry a plus sign. -/
def uint64? (token : String) : Option UInt64 :=
  let magnitude := match token.toList with
    | '+' :: cs => magnitude? cs
    | cs => magnitude? cs
  magnitude.bind toUInt64?

end DecimalMachine.Decimal
