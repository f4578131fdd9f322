import DecimalMachine.Instruction

/-!
Words, instructions, and operation codes with their operands.

A word is packed from a sign, a code and an operand, and `Word.Packs` says what comes of it. Packing
and taking apart undo each other, up to the sign, which an instruction does not have, and up to the
codes of the instruction set that go by the name `unknown`, which are decoded to their operation.
-/

namespace DecimalMachine

namespace Word

/-! ### The parts of a word -/

theorem opcode_neg (w : Word) : w.neg.opcode = w.opcode := by
  simp only [opcode, neg, Int.natAbs_neg]

theorem operand_neg (w : Word) : w.neg.operand = w.operand := by
  simp only [operand, neg, Int.natAbs_neg]

theorem instruction_neg (w : Word) : Instruction.ofWord w.neg = Instruction.ofWord w := by
  simp only [Instruction.ofWord, opcode_neg, operand_neg]

theorem opcode_le (w : Word) : w.opcode.toNat ≤ 99 := by
  have := w.natAbs_lt
  rw [opcode_toNat]
  omega

theorem operand_le (w : Word) : w.operand.toNat ≤ 9999 := by
  rw [operand_toNat]
  omega

theorem haltPages_le (w : Word) : (Instruction.ofWord w).haltPages.1.toNat ≤ 99 ∧
    (Instruction.ofWord w).haltPages.2.toNat ≤ 99 := by
  have operand : (Instruction.ofWord w).operand.toNat ≤ 9999 := w.operand_le
  obtain ⟨first, last⟩ := (Instruction.ofWord w).haltPages_toNat
  omega

theorem natAbs_of_parts {v w : Word} (opcode : v.opcode = w.opcode)
    (operand : v.operand = w.operand) : v.value.natAbs = w.value.natAbs := by
  have high := congrArg UInt8.toNat opcode
  have low := congrArg UInt16.toNat operand
  rw [opcode_toNat, opcode_toNat] at high
  rw [operand_toNat, operand_toNat] at low
  omega

/-- The value has this sign, or is zero. -/
def Signed (negative : Bool) (w : Word) : Prop :=
  w.value = if negative then -(w.value.natAbs : Int) else w.value.natAbs

theorem signed_isNegative (w : Word) : w.Signed w.isNegative := by
  by_cases negative : w.value < 0
  · simp only [Signed, isNegative, negative, decide_true, if_true]
    omega
  · simp only [Signed, isNegative, negative, decide_false, Bool.false_eq_true, if_false]
    omega

theorem signed_neg {w : Word} (positive : 0 ≤ w.value) : w.neg.Signed true := by
  simp only [Signed, neg, Int.natAbs_neg, if_true]
  omega

theorem ext_parts {v w : Word} {negative : Bool} (opcode : v.opcode = w.opcode)
    (operand : v.operand = w.operand) (signed : v.Signed negative) (signed' : w.Signed negative) :
    v = w := by
  rw [Signed, natAbs_of_parts opcode operand] at signed
  exact Word.ext (signed.trans signed'.symm)

/-! ### Packing -/

/-- What comes of packing a sign, a code and an operand. -/
inductive Packs (negative : Bool) (opcode : UInt8) (operand : UInt16) :
    Except WordError Word → Prop where
  | packed {w : Word} (high : w.opcode = opcode) (low : w.operand = operand)
      (signed : w.Signed negative) : Packs negative opcode operand (.ok w)
  | opcode (large : 99 < opcode.toNat) :
      Packs negative opcode operand (.error (.opcodeOutOfRange opcode))
  | operand (small : opcode.toNat ≤ 99) (large : 9999 < operand.toNat) :
      Packs negative opcode operand (.error (.operandOutOfRange operand))

variable {negative : Bool} {opcode : UInt8} {operand : UInt16}

theorem Packs.of_natAbs {w : Word} (short : operand.toNat ≤ 9999)
    (magnitude : w.value.natAbs = opcode.toNat * 10000 + operand.toNat)
    (signed : w.Signed negative) : Packs negative opcode operand (.ok w) := by
  apply Packs.packed _ _ signed
  · rw [← UInt8.toNat_inj, opcode_toNat]
    omega
  · rw [← UInt16.toNat_inj, operand_toNat]
    omega

theorem pack_packs (negative : Bool) (opcode : UInt8) (operand : UInt16) :
    Packs negative opcode operand (pack negative opcode operand) := by
  by_cases small : opcode.toNat ≤ 99
  · by_cases short : operand.toNat ≤ 9999
    · simp only [pack, dif_pos small, dif_pos short]
      cases negative with
      | false =>
        rw [if_neg Bool.false_ne_true]
        exact .of_natAbs short rfl rfl
      | true =>
        rw [if_pos rfl]
        exact .of_natAbs short (Int.natAbs_neg _) (signed_neg (Int.natCast_nonneg _))
    · simp only [pack, dif_pos small, dif_neg short]
      exact .operand small (Nat.lt_of_not_le short)
  · simp only [pack, dif_neg small]
    exact .opcode (Nat.lt_of_not_le small)

theorem Packs.unique {r r' : Except WordError Word} (packs : Packs negative opcode operand r)
    (others : Packs negative opcode operand r') : r = r' := by
  cases packs with
  | @packed w high low signed =>
    have small : opcode.toNat ≤ 99 := high ▸ w.opcode_le
    have short : operand.toNat ≤ 9999 := low ▸ w.operand_le
    cases others with
    | packed high' low' signed' =>
      have same := ext_parts (high.trans high'.symm) (low.trans low'.symm) signed signed'
      exact congrArg Except.ok same
    | opcode large | operand _ large => omega
  | opcode large =>
    cases others with
    | @packed w high =>
      have small : opcode.toNat ≤ 99 := high ▸ w.opcode_le
      omega
    | opcode => rfl
    | operand small => omega
  | operand small large =>
    cases others with
    | @packed w _ low =>
      have short : operand.toNat ≤ 9999 := low ▸ w.operand_le
      omega
    | opcode large => omega
    | operand => rfl

theorem pack_eq_iff {r : Except WordError Word} :
    pack negative opcode operand = r ↔ Packs negative opcode operand r := by
  constructor
  · rintro rfl
    exact pack_packs negative opcode operand
  · exact (pack_packs negative opcode operand).unique

theorem exists_pack_iff : (∃ w, pack negative opcode operand = .ok w) ↔
    opcode.toNat ≤ 99 ∧ operand.toNat ≤ 9999 := by
  constructor
  · rintro ⟨w, packed⟩
    cases pack_eq_iff.mp packed with
    | packed high low => exact ⟨high ▸ w.opcode_le, low ▸ w.operand_le⟩
  · rintro ⟨small, short⟩
    cases packed : pack negative opcode operand with
    | ok w => exact ⟨w, rfl⟩
    | error e =>
      cases pack_eq_iff.mp packed with
      | opcode large | operand _ large => omega

end Word

/-! ### Operations and their codes -/

namespace Opcode

theorem ofCode_unknown {code : UInt8} (unknown : ∀ op ∈ all, op.code ≠ code) :
    ofCode code = .unknown code := by
  have none : (all.find? fun op => op.code == code) = none := by
    simpa [List.find?_eq_none] using unknown
  rw [ofCode, none, Option.getD_none]

theorem ofCode_own {op : Opcode} (proper : ∀ known ∈ all, op ≠ .unknown known.code) :
    ofCode op.code = op := by
  cases op with
  | unknown code =>
    apply ofCode_unknown
    intro known recognized same
    exact proper known recognized (congrArg Opcode.unknown same.symm)
  | _ => exact ofCode_code (by decide)

end Opcode

namespace Instruction

theorem ofWord_toWord {i : Instruction} {w : Word} (encoded : i.toWord = .ok w) :
    ofWord w = ⟨Opcode.ofCode i.opcode.code, i.operand⟩ := by
  cases Word.pack_eq_iff.mp encoded with
  | packed high low => rw [ofWord, high, low]

theorem toWord_ofWord (w : Word) :
    ∃ positive, (ofWord w).toWord = .ok positive ∧ positive.value = w.value.natAbs := by
  obtain ⟨positive, packed⟩ : ∃ positive, Word.pack false w.opcode w.operand = .ok positive :=
    Word.exists_pack_iff.mpr ⟨w.opcode_le, w.operand_le⟩
  refine ⟨positive, by rw [toWord, ofWord, Opcode.code_ofCode, packed], ?_⟩
  cases Word.pack_eq_iff.mp packed with
  | packed high low signed =>
    have magnitude := Word.natAbs_of_parts high low
    rw [← magnitude]
    exact signed

end Instruction

/-- Every word is packed from its parts, decoded without its sign, and encoded again from what was
decoded, as its magnitude. A sign, a code and an operand make a word exactly if they have two and
four digits, and the word is decoded to them. An instruction is encoded exactly under the same
condition, and decoded to itself; only a code of the instruction set that goes by the name `unknown`
is decoded to its operation. -/
theorem word_views_inverse :
    (∀ w : Word, Word.pack w.isNegative w.opcode w.operand = .ok w ∧
      Instruction.ofWord w.neg = Instruction.ofWord w ∧
      ∃ positive, (Instruction.ofWord w).toWord = .ok positive ∧
        positive.value = w.value.natAbs) ∧
    (∀ (negative : Bool) (opcode : UInt8) (operand : UInt16),
      ((∃ w, Word.pack negative opcode operand = .ok w) ↔
        opcode.toNat ≤ 99 ∧ operand.toNat ≤ 9999) ∧
      (99 < opcode.toNat →
        Word.pack negative opcode operand = .error (.opcodeOutOfRange opcode)) ∧
      (opcode.toNat ≤ 99 → 9999 < operand.toNat →
        Word.pack negative opcode operand = .error (.operandOutOfRange operand)) ∧
      ∀ w, Word.pack negative opcode operand = .ok w → w.Signed negative ∧
        (Instruction.ofWord w).opcode.code = opcode ∧ (Instruction.ofWord w).operand = operand) ∧
    ∀ i : Instruction,
      ((∃ w, i.toWord = .ok w) ↔ i.opcode.code.toNat ≤ 99 ∧ i.operand.toNat ≤ 9999) ∧
      ∀ w, i.toWord = .ok w →
        ((∀ op ∈ Opcode.all, i.opcode ≠ .unknown op.code) → Instruction.ofWord w = i) ∧
        ∀ op ∈ Opcode.all, i.opcode = .unknown op.code →
          Instruction.ofWord w = ⟨op, i.operand⟩ := by
  refine ⟨?_, ?_, ?_⟩
  · intro w
    have packed := Word.pack_eq_iff.mpr (.packed rfl rfl w.signed_isNegative)
    exact ⟨packed, w.instruction_neg, Instruction.toWord_ofWord w⟩
  · intro negative opcode operand
    refine ⟨Word.exists_pack_iff, fun large => Word.pack_eq_iff.mpr (.opcode large),
      fun small large => Word.pack_eq_iff.mpr (.operand small large), ?_⟩
    intro w packed
    cases Word.pack_eq_iff.mp packed with
    | packed high low signed =>
      exact ⟨signed, by rw [Instruction.ofWord, Opcode.code_ofCode, high], low⟩
  · intro i
    refine ⟨Word.exists_pack_iff, ?_⟩
    intro w encoded
    have decoded := Instruction.ofWord_toWord encoded
    constructor
    · intro proper
      rw [decoded, Opcode.ofCode_own proper]
    · intro op recognized same
      rw [decoded, same, Opcode.code, Opcode.ofCode_code recognized]

theorem word_views_inverse_disguised :
    (∃ w, (Instruction.mk (.unknown 45) 205).toWord = .ok w ∧ w.value = 450205 ∧
      Instruction.ofWord w = ⟨.halt, 205⟩ ∧ Instruction.ofWord w.neg = ⟨.halt, 205⟩) ∧
    (∃ w, (Instruction.mk (.unknown 44) 9999).toWord = .ok w ∧
      Instruction.ofWord w = ⟨.unknown 44, 9999⟩) ∧
    Word.pack true 100 10000 = .error (.opcodeOutOfRange 100) := by
  obtain ⟨words, packing, instructions⟩ := word_views_inverse
  refine ⟨?_, ?_, (packing true 100 10000).2.1 (by decide)⟩
  · obtain ⟨w, encoded⟩ := (instructions ⟨.unknown 45, 205⟩).1.mpr (by decide)
    have decoded := ((instructions ⟨.unknown 45, 205⟩).2 w encoded).2 .halt (by decide) rfl
    refine ⟨w, encoded, ?_, decoded, (words w).2.1.trans decoded⟩
    cases encoded
    rfl
  · obtain ⟨w, encoded⟩ := (instructions ⟨.unknown 44, 9999⟩).1.mpr (by decide)
    exact ⟨w, encoded, ((instructions ⟨.unknown 44, 9999⟩).2 w encoded).1 (by decide)⟩

end DecimalMachine
