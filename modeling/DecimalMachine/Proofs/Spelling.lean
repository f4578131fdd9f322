import Mathlib.Data.List.Induction
import DecimalMachine.Text.Blank
import DecimalMachine.Text.Decimal

/-!
How integers are spelled: one optional sign and ASCII digits, of any number and with any leading
zeros.

Reading a token accepts exactly the spelled integers, and gives the integer that is spelled;
`int64?` passes over those that need more than 64 bits.
-/

namespace DecimalMachine.Decimal

/-- A run of ASCII digits, and the number that it stands for. -/
inductive Digits : List Char → Nat → Prop where
  | one {c : Char} (digit : c.isDigit) : Digits [c] (c.toNat - 48)
  | more {cs : List Char} {n : Nat} {c : Char} (before : Digits cs n) (digit : c.isDigit) :
      Digits (cs ++ [c]) (10 * n + (c.toNat - 48))

/-- The characters are one optional sign and digits, which stand for this integer. -/
inductive Spells : List Char → Int → Prop where
  | bare {cs : List Char} {n : Nat} (digits : Digits cs n) : Spells cs n
  | plus {cs : List Char} {n : Nat} (digits : Digits cs n) : Spells ('+' :: cs) n
  | minus {cs : List Char} {n : Nat} (digits : Digits cs n) : Spells ('-' :: cs) (-n)

/-! ### Digits -/

theorem Digits.ne_nil {cs : List Char} {n : Nat} (digits : Digits cs n) : cs ≠ [] := by
  cases digits with
  | one digit => exact List.cons_ne_nil _ _
  | more before digit => exact List.append_ne_nil_of_right_ne_nil _ (List.cons_ne_nil _ _)

theorem Digits.isDigit {cs : List Char} {n : Nat} (digits : Digits cs n) :
    ∀ c ∈ cs, c.isDigit := by
  induction digits with
  | one digit => exact List.forall_mem_singleton.mpr digit
  | more before digit ih =>
    exact List.forall_mem_append.mpr ⟨ih, List.forall_mem_singleton.mpr digit⟩

theorem Digits.value {cs : List Char} {n : Nat} (digits : Digits cs n) :
    Nat.ofDigitChars 10 cs 0 = n := by
  induction digits with
  | one digit => rw [Nat.ofDigitChars_cons, Nat.mul_zero, Nat.zero_add]; rfl
  | more before digit ih => rw [Nat.ofDigitChars_append, ih, Nat.ofDigitChars_cons]; rfl

theorem digits_of_isDigit {cs : List Char} (nonempty : cs ≠ []) (all : ∀ c ∈ cs, c.isDigit) :
    Digits cs (Nat.ofDigitChars 10 cs 0) := by
  induction cs using List.reverseRecOn with
  | nil => contradiction
  | append_singleton cs c ih =>
    obtain ⟨front, last⟩ := List.forall_mem_append.mp all
    have digit := List.forall_mem_singleton.mp last
    by_cases single : cs = []
    · subst single
      rw [List.nil_append, Nat.ofDigitChars_cons, Nat.mul_zero, Nat.zero_add]
      exact .one digit
    · rw [Nat.ofDigitChars_append, Nat.ofDigitChars_cons]
      exact .more (ih single front) digit

theorem magnitude?_eq_some_iff {cs : List Char} {n : Nat} :
    magnitude? cs = some n ↔ Digits cs n := by
  unfold magnitude?
  constructor
  · intro read
    split at read
    · cases read
    · rename_i nonempty
      split at read
      · rename_i all
        rw [← Option.some.inj read]
        exact digits_of_isDigit (by simpa using nonempty) (List.all_eq_true.mp all)
      · cases read
  · intro digits
    have nonempty : ¬ cs.isEmpty := by simpa using digits.ne_nil
    rw [if_neg nonempty, if_pos (List.all_eq_true.mpr digits.isDigit), digits.value]

/-! ### Integers -/

theorem integer?_eq_some_iff {cs : List Char} {z : Int} : integer? cs = some z ↔ Spells cs z := by
  constructor
  · intro read
    unfold integer? at read
    split at read
    all_goals
      obtain ⟨_, cast, rfl⟩ := Option.map_eq_some_iff.mp read
      obtain ⟨n, magnitude, same⟩ := Option.bind_eq_some_iff.mp cast
      cases same
      have digits := magnitude?_eq_some_iff.mp magnitude
    · exact .minus digits
    · exact .plus digits
    · exact .bare digits
  · intro spelled
    cases spelled with
    | bare digits => exact integer?_of_magnitude? (magnitude?_eq_some_iff.mpr digits)
    | plus digits => simp [integer?, magnitude?_eq_some_iff.mpr digits]
    | minus digits => simp [integer?, magnitude?_eq_some_iff.mpr digits]

theorem Spells.ne_nil {cs : List Char} {z : Int} (spelled : Spells cs z) : cs ≠ [] := by
  cases spelled with
  | bare digits => exact digits.ne_nil
  | plus digits => exact List.cons_ne_nil _ _
  | minus digits => exact List.cons_ne_nil _ _

theorem not_isBlank_of_isDigit {c : Char} (digit : c.isDigit) : Text.isBlank c = false := by
  have bounds : 48 ≤ c.toNat ∧ c.toNat ≤ 57 := by
    simpa [Char.isDigit, UInt32.le_iff_toNat_le] using digit
  simp only [Text.isBlank]
  simp
  omega

theorem Spells.sign_or_digit {cs : List Char} {z : Int} (spelled : Spells cs z) :
    ∀ c ∈ cs, c = '+' ∨ c = '-' ∨ c.isDigit := by
  cases spelled with
  | bare digits => exact fun c mem => .inr (.inr (digits.isDigit c mem))
  | plus digits =>
    exact List.forall_mem_cons.mpr ⟨.inl rfl, fun c mem => .inr (.inr (digits.isDigit c mem))⟩
  | minus digits =>
    exact List.forall_mem_cons.mpr
      ⟨.inr (.inl rfl), fun c mem => .inr (.inr (digits.isDigit c mem))⟩

theorem Spells.letters {cs : List Char} {z : Int} (spelled : Spells cs z) :
    ∀ c ∈ cs, Text.isBlank c = false := by
  intro c mem
  rcases spelled.sign_or_digit c mem with rfl | rfl | digit
  · decide
  · decide
  · exact not_isBlank_of_isDigit digit

theorem spells_write (form : Numeral) (z : Int) : Spells (form.write z).toList z := by
  rw [Numeral.write, String.toList_ofList]
  exact integer?_eq_some_iff.mp (integer?_chars form z)

/-! ### 64 bits -/

theorem toInt64?_eq_some_iff {z : Int} {v : Int64} : toInt64? z = some v ↔ v.toInt = z := by
  unfold toInt64?
  constructor
  · intro made
    split at made
    · rename_i bounds
      rw [← Option.some.inj made]
      exact Int64.toInt_ofInt_of_le (by omega) (by omega)
    · cases made
  · rintro rfl
    have lower := v.le_toInt
    have upper := v.toInt_lt
    rw [if_pos (by omega), Int64.ofInt_toInt]

theorem exists_toInt64? {z : Int} (lower : -9223372036854775808 ≤ z)
    (upper : z ≤ 9223372036854775807) : ∃ v, toInt64? z = some v ∧ v.toInt = z := by
  have made : toInt64? z = some (Int64.ofInt z) := if_pos ⟨lower, upper⟩
  exact ⟨_, made, toInt64?_eq_some_iff.mp made⟩

theorem toInt64?_of_beyond {z : Int}
    (beyond : z < -9223372036854775808 ∨ 9223372036854775807 < z) : toInt64? z = none :=
  if_neg (by omega)

theorem int64?_eq_some_iff {token : String} {v : Int64} :
    int64? token = some v ↔ Spells token.toList v.toInt := by
  rw [int64?, Option.bind_eq_some_iff]
  constructor
  · rintro ⟨z, read, made⟩
    rw [toInt64?_eq_some_iff.mp made]
    exact integer?_eq_some_iff.mp read
  · intro spelled
    exact ⟨_, integer?_eq_some_iff.mpr spelled, toInt64?_eq_some_iff.mpr rfl⟩

theorem int64?_of_spells {token : String} {z : Int} (spelled : Spells token.toList z) :
    int64? token = toInt64? z := by
  rw [int64?, integer?_eq_some_iff.mpr spelled, Option.bind_some]

end DecimalMachine.Decimal
