import DecimalMachine.Program.Loading
import DecimalMachine.Proofs.Moments
import DecimalMachine.Proofs.Spelling
import DecimalMachine.Report

/-!
Newlines in what is written: only at the end of a write, and every write has something to write.

Numerals are digits and a sign, so that every text that is put together from them and from fixed
words stays on one line.
-/

namespace DecimalMachine

def Flat (text : String) : Prop := '\n' ∉ text.toList

instance (text : String) : Decidable (Flat text) := inferInstanceAs (Decidable ('\n' ∉ text.toList))

namespace Flat

theorem append {a b : String} (first : Flat a) (second : Flat b) : Flat (a ++ b) := by
  unfold Flat at *
  rw [String.toList_append, List.mem_append]
  exact not_or.mpr ⟨first, second⟩

theorem join {texts : List String} (all : ∀ text ∈ texts, Flat text) :
    Flat (String.join texts) := by
  unfold Flat
  rw [String.toList_join, List.mem_flatMap]
  rintro ⟨text, mem, newline⟩
  exact all text mem newline

theorem digits (n : Nat) : '\n' ∉ Decimal.digits n := by
  intro mem
  have digit := Nat.isDigit_of_mem_toDigits (by decide) (by decide) mem
  exact absurd digit (by decide)

theorem numeral (form : Decimal.Numeral) (z : Int) : Flat (form.write z) := by
  intro newline
  exact absurd ((Decimal.spells_write form z).letters _ newline) (by decide)

theorem toString_nat (n : Nat) : Flat (toString n) := by
  have chars : (toString n).toList = Decimal.digits n := Nat.toList_repr
  rw [Flat, chars]
  exact digits n

theorem toString_int (z : Int) : Flat (toString z) := by
  cases z with
  | ofNat n => exact toString_nat n
  | negSucc n => exact append (by decide) (toString_nat (n + 1))

theorem blanks (n : Nat) : Flat (Text.blanks n) := by
  unfold Flat Text.blanks
  rw [String.toList_ofList, List.mem_replicate]
  exact fun same => absurd same.2 (by decide)

theorem padLeft (width : Nat) {text : String} (flat : Flat text) :
    Flat (Text.padLeft width text) :=
  append (blanks _) flat

theorem padRight (width : Nat) {text : String} (flat : Flat text) :
    Flat (Text.padRight width text) :=
  append flat (blanks _)

end Flat

/-! ### Lines -/

theorem Instruction.flat_text (i : Instruction) : Flat i.text :=
  ((((by decide : Flat "(OpCode: ").append (.numeral _ _)).append (by decide)).append
    (.numeral _ _)).append (by decide)

theorem Fault.flat_message (fault : Fault) : Flat fault.message := by
  have cause : Flat fault.cause := by
    cases fault with
    | unknownOpcode code location => exact Flat.append (by decide) (.numeral _ _)
    | outOfRange address location =>
      exact ((by decide : Flat "memory address ").append (.toString_int _)).append (by decide)
    | divisionByZero location => exact (by decide : Flat "attempt to divide by zero")
    | accumulatorOverflow value location =>
      exact ((by decide : Flat "accumulator overflow (").append (.toString_int _)).append
        (by decide)
    | invalidInput value location =>
      exact ((by decide : Flat "input value ").append (.toString_int _)).append (by decide)
    | inputExhausted location => exact (by decide : Flat "input exhausted")
  exact (cause.append (by decide)).append (.numeral _ _)

theorem Machine.flat_announcement (m : Machine) : Flat m.announcement :=
  ((((((by decide : Flat "Executing instruction at ").append (.numeral _ _)).append
    (by decide)).append (.numeral _ _)).append (by decide)).append m.current.flat_text)

theorem Outcome.flat_lines (outcome : Outcome) : ∀ line ∈ outcome.lines, Flat line := by
  cases outcome with
  | halted first last =>
    exact (by decide : ∀ line ∈ ["*** Simpletron execution terminated ***"], Flat line)
  | faulted fault =>
    simp only [lines, List.forall_mem_cons]
    exact ⟨by decide, ((by decide : Flat "*** ").append fault.flat_message).append (by decide),
      nofun⟩
  | cycleLimit count =>
    simp only [lines, List.forall_mem_cons]
    exact ⟨((by decide : Flat "*** Simpletron execution suspended after ").append
      (.toString_nat _)).append (by decide), nofun⟩

theorem Machine.flat_registerLines (m : Machine) : ∀ line ∈ m.registerLines, Flat line := by
  simp only [registerLines, List.forall_mem_cons]
  exact ⟨by decide, by decide, Flat.append (by decide) (.numeral _ _),
    Flat.append (by decide) (.numeral _ _), Flat.append (by decide) (.numeral _ _),
    Flat.append (by decide) (.numeral _ _), Flat.append (by decide) (.numeral _ _), by decide,
    by decide, nofun⟩

theorem Memory.flat_rowLine (words : List Word) (row : Nat) : Flat (rowLine words row) := by
  apply ((Flat.numeral _ _).padLeft 3 |>.append (by decide)).append
  apply Flat.join
  simp only [List.mem_map]
  rintro _ ⟨cell, -, rfl⟩
  exact (Flat.numeral _ _).append (by decide)

theorem Memory.flat_pageLines? (m : Memory) (number : Nat) :
    ∀ line ∈ m.pageLines? number, Flat line := by
  unfold pageLines?
  split
  · rename_i words _
    simp only [pageLines, List.forall_mem_cons, List.forall_mem_append, List.mem_map]
    refine ⟨⟨Flat.append (by decide) (.numeral _ _), by decide, by decide, ?_⟩, by decide, nofun⟩
    rintro _ ⟨row, -, rfl⟩
    exact flat_rowLine words row
  · nofun

theorem Machine.flat_dumpLines (m : Machine) (first last : UInt64) :
    ∀ line ∈ m.dumpLines first last, Flat line := by
  simp only [dumpLines, List.forall_mem_append, List.mem_flatMap]
  refine ⟨m.flat_registerLines, ?_⟩
  rintro line ⟨number, -, mem⟩
  exact m.memory.flat_pageLines? number line mem

theorem Program.flat_entryPrompt (location : Nat) : Flat (entryPrompt location) :=
  (Flat.numeral _ _).append (by decide)

theorem Program.flat_entryHeading : ∀ line ∈ entryHeading, Flat line := by decide

/-! ### Lines told apart -/

theorem append_inj_of_notMem {x : Char} {a b c d : List Char} (clear : x ∉ a) (clear' : x ∉ b)
    (starts : ∀ y ∈ c.head?, y = x) (starts' : ∀ y ∈ d.head?, y = x) :
    a ++ c = b ++ d ↔ a = b ∧ c = d := by
  constructor
  · intro same
    rcases List.append_eq_append_iff.mp same with ⟨between, rfl, rest⟩ | ⟨between, rfl, rest⟩
    · cases between with
      | nil => simpa using rest
      | cons y between =>
        rw [starts y (by simp [rest])] at clear'
        simp at clear'
    · cases between with
      | nil => simpa using rest.symm
      | cons y between =>
        rw [starts' y (by simp [rest])] at clear
        simp at clear
  · rintro ⟨rfl, rfl⟩
    rfl

theorem lines_inj {lines others : List String} (flat : ∀ line ∈ lines, Flat line)
    (flat' : ∀ line ∈ others, Flat line)
    (same : String.join (lines.map (· ++ "\n")) = String.join (others.map (· ++ "\n"))) :
    lines = others := by
  have chars (ls : List String) : (String.join (ls.map (· ++ "\n"))).toList =
      ls.flatMap fun line => line.toList ++ ['\n'] := by
    rw [String.toList_join, List.flatMap_map]
    simp
  replace same := congrArg String.toList same
  rw [chars, chars] at same
  induction lines generalizing others with
  | nil =>
    cases others with
    | nil => rfl
    | cons line rest => simp at same
  | cons line rest ih =>
    cases others with
    | nil => simp at same
    | cons line' rest' =>
      obtain ⟨here, behind⟩ := List.forall_mem_cons.mp flat
      obtain ⟨here', behind'⟩ := List.forall_mem_cons.mp flat'
      simp only [List.flatMap_cons, List.append_assoc] at same
      obtain ⟨first, tail⟩ := (append_inj_of_notMem here here' (by simp) (by simp)).mp same
      obtain rfl := String.toList_inj.mp first
      exact congrArg (line :: ·) (ih behind behind' (List.append_cancel_left tail))

end DecimalMachine
