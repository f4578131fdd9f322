import DecimalMachine.Program.Listing
import DecimalMachine.Proofs.Replacement
import DecimalMachine.Proofs.Texts

/-!
What the mnemonic form of a word tells.

It has a name and a detail, which begins with the first blank, so that both can be read off it. The
detail has exactly the parts of the word that its operation uses, and all of a word without an
operation. Two words with one mnemonic form are therefore carried out alike.
-/

namespace DecimalMachine

open Decimal (Numeral)

/-! ### Numerals -/

theorem Decimal.Numeral.chars_inj {form : Numeral} {y z : Int} :
    form.chars y = form.chars z ↔ y = z := by
  constructor
  · intro same
    have read := integer?_chars form y
    rw [same, integer?_chars] at read
    exact (Option.some.inj read).symm
  · rintro rfl
    rfl

theorem Decimal.Numeral.write_inj {form : Numeral} {y z : Int} :
    form.write y = form.write z ↔ y = z := by
  rw [write, write, String.ofList_inj, chars_inj]

theorem Decimal.Numeral.write_nat_inj {form : Numeral} {a b : Nat} :
    form.write a = form.write b ↔ a = b := write_inj.trans Int.ofNat_inj

theorem Decimal.Numeral.sign_nat {form : Numeral} (plain : form.plus = false) (n : Nat) :
    form.sign n = [] := by
  simp [sign, plain]

theorem Decimal.Numeral.unsigned {form : Numeral} (plain : form.plus = false) (n : Nat) :
    '-' ∉ form.chars n := by
  rw [Numeral.chars, sign_nat plain, List.nil_append, List.mem_append, List.mem_replicate]
  rintro (zero | digit)
  · exact absurd zero.2 (by decide)
  · exact absurd (Nat.isDigit_of_mem_toDigits (by decide) (by decide) digit) (by decide)

theorem Decimal.Numeral.range_inj {form : Numeral} (plain : form.plus = false) {a b c d : Nat} :
    form.write a ++ "-" ++ form.write b = form.write c ++ "-" ++ form.write d ↔ a = c ∧ b = d := by
  rw [← String.toList_inj]
  simp only [write, String.toList_append, String.toList_ofList, List.append_assoc]
  rw [append_inj_of_notMem (unsigned plain a) (unsigned plain c) (by simp) (by simp),
    List.append_right_inj, chars_inj, chars_inj, Int.ofNat_inj, Int.ofNat_inj]

/-! ### Names -/

namespace Opcode

theorem mem_all_or_unknown (op : Opcode) : op ∈ all ∨ ∃ code, op = .unknown code := by
  cases op with
  | unknown code => exact .inr ⟨code, rfl⟩
  | _ => exact .inl (by decide)

def ofMnemonic? (name : String) : Option Opcode := all.find? fun op => op.mnemonic == name

theorem ofMnemonic?_mnemonic {op : Opcode} (known : op ∈ all) :
    ofMnemonic? op.mnemonic = some op := by
  have each : ∀ op ∈ all, ofMnemonic? op.mnemonic = some op := by decide
  exact each op known

theorem ofMnemonic?_unknown (code : UInt8) : ofMnemonic? (unknown code).mnemonic = none := by
  have nameless : ofMnemonic? "???" = none := by decide
  exact nameless

theorem mnemonic_noBlank (op : Opcode) : ' ' ∉ op.mnemonic.toList := by
  cases op with
  | unknown code =>
    have nameless : ' ' ∉ "???".toList := by decide
    exact nameless
  | _ => decide

end Opcode

/-! ### Details -/

theorem Instruction.haltPages_inj {i j : Instruction} :
    i.haltPages.1.toNat = j.haltPages.1.toNat ∧ i.haltPages.2.toNat = j.haltPages.2.toNat ↔
      i.operand = j.operand := by
  rw [i.haltPages_toNat.1, i.haltPages_toNat.2, j.haltPages_toNat.1, j.haltPages_toNat.2,
    ← UInt16.toNat_inj]
  omega

namespace Opcode

/-- What stands behind the name of the operation in the mnemonic form of a word. -/
def detail (op : Opcode) (w : Word) : String :=
  match op with
  | .unknown _ => " ; " ++ w.text
  | .loadImmediate => " " ++ Numeral.plain.write w.immediate.value
  | .halt =>
    let (first, last) := (Instruction.ofWord w).haltPages
    let page : Numeral := { width := 2 }
    " " ++ (page.write first.toNat ++ "-" ++ page.write last.toNat)
  | op =>
    if op.usesOperand then
      " " ++ Instruction.operandNumeral.write (Instruction.ofWord w).operand.toNat
    else ""

theorem detail_starts (op : Opcode) (w : Word) : ∀ y ∈ (op.detail w).toList.head?, y = ' ' := by
  unfold detail
  cases op <;> simp [usesOperand, isIndexed]

theorem detail_inj (op : Opcode) {v w : Word} :
    op.detail v = op.detail w ↔ (op.usesOperand = true → v.operand = w.operand) ∧
      (op = .loadImmediate → v.immediate = w.immediate) ∧
      ∀ code, op = .unknown code → v = w := by
  unfold detail
  cases op with
  | unknown code => simp [usesOperand, Word.text, Numeral.write_inj, Word.ext_iff]
  | loadImmediate => simp [usesOperand, Numeral.write_inj, Word.ext_iff]
  | halt =>
    simp only [String.append_right_inj]
    rw [Numeral.range_inj rfl, Instruction.haltPages_inj]
    simp [usesOperand, isIndexed, Instruction.ofWord]
  | _ =>
    simp [usesOperand, isIndexed, Numeral.write_nat_inj, UInt16.toNat_inj, Instruction.ofWord]

end Opcode

theorem Word.mnemonicText_eq (w : Word) : w.mnemonicText =
    (Instruction.ofWord w).opcode.mnemonic ++ (Instruction.ofWord w).opcode.detail w := by
  unfold mnemonicText Opcode.detail
  cases op : (Instruction.ofWord w).opcode <;>
    simp [op, Opcode.isIndexed, Opcode.usesOperand, String.append_assoc]

/-- A name belongs to one operation, or to all codes without one. -/
theorem Opcode.eq_of_mnemonic {op op' : Opcode} (same : op.mnemonic = op'.mnemonic) :
    op = op' ∨ ∃ code code', op = .unknown code ∧ op' = .unknown code' := by
  have found := congrArg ofMnemonic? same
  rcases op.mem_all_or_unknown with known | ⟨code, rfl⟩
  · rcases op'.mem_all_or_unknown with known' | ⟨code', rfl⟩
    · rw [ofMnemonic?_mnemonic known, ofMnemonic?_mnemonic known'] at found
      exact .inl (Option.some.inj found)
    · rw [ofMnemonic?_mnemonic known, ofMnemonic?_unknown] at found
      cases found
  · rcases op'.mem_all_or_unknown with known' | ⟨code', rfl⟩
    · rw [ofMnemonic?_unknown, ofMnemonic?_mnemonic known'] at found
      cases found
    · exact .inr ⟨code, code', rfl, rfl⟩

theorem Word.mnemonicText_inj {v w : Word} :
    v.mnemonicText = w.mnemonicText ↔ v.UsedAlike w ∧
      ∀ code, (Instruction.ofWord v).opcode = .unknown code → v = w := by
  have parts : v.mnemonicText = w.mnemonicText ↔
      (Instruction.ofWord v).opcode.mnemonic = (Instruction.ofWord w).opcode.mnemonic ∧
        (Instruction.ofWord v).opcode.detail v = (Instruction.ofWord w).opcode.detail w := by
    simp only [mnemonicText_eq, ← String.toList_inj, String.toList_append]
    exact append_inj_of_notMem (Opcode.mnemonic_noBlank _) (Opcode.mnemonic_noBlank _)
      (Opcode.detail_starts _ v) (Opcode.detail_starts _ w)
  rw [parts]
  constructor
  · rintro ⟨name, detail⟩
    rcases Opcode.eq_of_mnemonic name with op | ⟨code, code', op, op'⟩
    · rw [← op, Opcode.detail_inj] at detail
      exact ⟨⟨op, detail.1, detail.2.1⟩, detail.2.2⟩
    · have whole : v = w := by
        rw [op, op'] at detail
        exact ((Opcode.unknown code).detail_inj.mp detail).2.2 code rfl
      exact ⟨whole ▸ .refl v, fun _ _ => whole⟩
  · rintro ⟨used, whole⟩
    rw [← used.opcode, Opcode.detail_inj]
    exact ⟨rfl, used.operand, used.immediate, whole⟩

variable {ι ω ψ : Type} [Source ι] [Sink ω] [Sink ψ] {holds : ω → String → Prop}
  {holds' : ψ → String → Prop}

/-- The mnemonic form hides no difference in behaviour: it has all that is used of a word. Two words
with one mnemonic form are carried out alike by an instruction that does not read its own cell. -/
theorem mnemonicText_hides_nothing (reliable : Reliable holds) (reliable' : Reliable holds')
    (v w : Word) :
    (v.mnemonicText = w.mnemonicText ↔ v.UsedAlike w ∧
      ∀ code, (Instruction.ofWord v).opcode = .unknown code → v = w) ∧
    (v.mnemonicText = w.mnemonicText → ∀ {s : Session ι ω} {t : Session ι ψ} {text text' : String},
      holds s.console.output text → holds' t.console.output text' →
      s.console.input = t.console.input → s.machine.HoldAtCounter v w t.machine →
      ¬ s.machine.ReadsAt (Instruction.ofWord v) s.machine.location.toNat →
      (Instruction.ofWord v).opcode = (Instruction.ofWord w).opcode ∧
        SameStep Instruction.opcode s.machine.location.toNat holds holds' text text' (step s)
          (step t)) := by
  refine ⟨Word.mnemonicText_inj, ?_⟩
  intro same s t text text' held held' input hold apart
  have used := (Word.mnemonicText_inj.mp same).1
  have alike : Machine.UsedAlike {s.machine.location.toNat} (s.machine.withInstruction v)
      (t.machine.withInstruction w) := by
    refine ⟨hold.toSameBesideMemory.withInstruction v w, hold.memory, used, ?_⟩
    rintro cell rfl
    exact apart
  exact ⟨used.opcode, sameStep_of_reply reliable reliable' held held' input hold used.opcode
    (alike.reply _)⟩

-- A session at an addition of the cell that the index register names, in this word.
def adding (w : Word) : Session Script Transcript :=
  ⟨⟨⟨.ofInt 5, 1, 0, .zero⟩, ⟨#[w, .ofInt 8]⟩, .running, 0, false⟩,
    ⟨⟨[]⟩, {}, {}⟩⟩

theorem adding_holds (v w : Word) : (adding v).machine.HoldAtCounter v w (adding w).machine := by
  refine ⟨⟨rfl, rfl, rfl, rfl, rfl, rfl⟩, rfl, rfl, ⟨rfl, ?_⟩, rfl, rfl⟩
  intro k outside
  match k with
  | 0 => exact absurd rfl outside
  | k + 1 => rfl

def plainWord : Word := .ofInt 310000

def adornedWord : Word := .ofInt (-311234)

theorem mnemonicText_hides_nothing_adding :
    plainWord.mnemonicText = adornedWord.mnemonicText ∧
    step (adding plainWord) = .ok ⟨.addIndexed, 0⟩ (endState (step (adding plainWord))) ∧
    step (adding adornedWord) = .ok ⟨.addIndexed, 1234⟩ (endState (step (adding adornedWord))) ∧
    SameStep Instruction.opcode 0 Transcript.Holds Transcript.Holds "" ""
      (step (adding plainWord)) (step (adding adornedWord)) := by
  have same : plainWord.mnemonicText = adornedWord.mnemonicText := by rfl
  have held : Transcript.Holds {} "" := ⟨rfl, rfl⟩
  have apart : ¬ (adding plainWord).machine.ReadsAt ⟨.addIndexed, 0⟩ 0 := by
    rintro ⟨-, here⟩
    simp [Machine.Addresses, Opcode.isIndexed, adding] at here
  have steps := (mnemonicText_hides_nothing Transcript.reliable Transcript.reliable plainWord
    adornedWord).2 same (s := adding plainWord) (t := adding adornedWord) held held rfl
    (adding_holds plainWord adornedWord) apart
  exact ⟨same, by rfl, by rfl, steps.2⟩

end DecimalMachine
