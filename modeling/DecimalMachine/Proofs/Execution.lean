import DecimalMachine.Proofs.View

/-!
Each instruction does what the table says.

`plan_follows` goes through the instruction set once. The two instructions that use the console are
left to `Dialogue`.
-/

namespace DecimalMachine.Machine

def operand (m : Machine) : Reference.Address :=
  ⟨m.registers.instruction.value.natAbs % 10000, Nat.mod_lt _ (by decide)⟩

theorem current_operand (m : Machine) : m.current.operand.toNat = m.operand.val :=
  m.registers.instruction.operand_toNat

theorem current_code (m : Machine) :
    m.registers.instruction.value.natAbs / 10000 = m.current.opcode.code.toNat := by
  rw [current, Instruction.ofWord, Opcode.code_ofCode, Word.opcode_toNat]

variable {m : Machine} {unread : List Int64} {output : String}

/-! ### The word that an instruction works on -/

theorem operand_lt (m : Machine) : m.current.operand.toUInt64.toNat < 10000 := by
  rw [UInt16.toNat_toUInt64, current_operand]
  exact m.operand.isLt

theorem operand_address (m : Machine) : ⟨_, m.operand_lt⟩ = m.operand := Fin.ext m.current_operand

theorem effectiveAddress_direct (direct : m.current.opcode.isIndexed = false) :
    m.effectiveAddress m.current = .ok m.current.operand.toUInt64 := by
  rw [effectiveAddress, direct]
  rfl

theorem operandWord_direct (whole : m.Whole) (direct : m.current.opcode.isIndexed = false) :
    ∃ w, m.operandWord m.current = .ok w ∧ w.value = m.cell m.operand := by
  obtain ⟨w, found, value⟩ := read_of_lt whole m.operand_lt
  rw [operand_address] at value
  refine ⟨w, ?_, value⟩
  rw [operandWord, effectiveAddress_direct direct]
  simp only [Except.bind, wordAt, found]

theorem view_direct (whole : m.Whole) (direct : m.current.opcode.isIndexed = false)
    (f : Word → Except Fault Change) (next : Int → Reference.State)
    (each : ∀ w, (m.settle (f w)).view unread output = next w.value) :
    (m.settle ((m.operandWord m.current).bind f)).view unread output = next (m.cell m.operand) := by
  obtain ⟨w, given, value⟩ := operandWord_direct whole direct
  rw [given, ← value]
  exact each w

theorem view_at_index (whole : m.Whole) (indexed : m.current.opcode.isIndexed = true)
    (f : Word → Except Fault Change) (next : Int → Reference.State)
    (each : ∀ w, (m.settle (f w)).view unread output = next w.value) :
    (m.settle ((m.operandWord m.current).bind f)).view unread output =
      (m.view unread output).indexed fun address => next (m.cell address) := by
  have reordered : (m.operandWord m.current).bind f =
      (m.effectiveAddress m.current).bind fun address => (m.wordAt address).bind f := by
    rw [operandWord]
    cases m.effectiveAddress m.current <;> rfl
  rw [reordered]
  apply view_indexed whole indexed
  intro address inside
  exact view_wordAt whole inside f next each

/-! ### Arithmetic -/

theorem immediate_value (w : Word) : w.immediate.value = w.value := by
  have no_millions : w.value.tdiv 1000000 = 0 := by
    rw [← Int.natAbs_eq_zero, Int.natAbs_tdiv]
    exact Nat.div_eq_of_lt w.natAbs_lt
  change w.value.tmod 1000000 = w.value
  rw [Int.tmod_def, no_millions]
  omega

theorem sum_bounds (a b : Word) :
    -999998000001 ≤ a.value + b.value ∧ a.value + b.value ≤ 999998000001 := by
  have := a.lower
  have := a.upper
  have := b.lower
  have := b.upper
  omega

theorem difference_bounds (a b : Word) :
    -999998000001 ≤ a.value - b.value ∧ a.value - b.value ≤ 999998000001 := by
  have := a.lower
  have := a.upper
  have := b.lower
  have := b.upper
  omega

theorem product_bounds (a b : Word) :
    -999998000001 ≤ a.value * b.value ∧ a.value * b.value ≤ 999998000001 := by
  have first : a.value.natAbs ≤ 999999 := Nat.le_of_lt_succ a.natAbs_lt
  have second : b.value.natAbs ≤ 999999 := Nat.le_of_lt_succ b.natAbs_lt
  have bound : (a.value * b.value).natAbs ≤ 999999 * 999999 := by
    rw [Int.natAbs_mul]
    exact Nat.mul_le_mul first second
  omega

theorem quotient_isWord (a : Word) (d : Int) : Reference.isWord (a.value.tdiv d) := by
  have bound : (a.value.tdiv d).natAbs ≤ a.value.natAbs := by
    rw [Int.natAbs_tdiv]
    exact Nat.div_le_self _ _
  have := a.natAbs_lt
  constructor <;> omega

theorem view_total (whole : m.Whole) {value : Int}
    (bounds : -999998000001 ≤ value ∧ value ≤ 999998000001) :
    (m.settle ((m.result value).map .accumulate)).view unread output =
      (m.view unread output).total value :=
  view_result whole (toInt_overflow bounds.1 bounds.2) _ _ (view_accumulate whole)

theorem view_quotient (whole : m.Whole) (divisor : Word) :
    (m.settle (if divisor.isZero then .error (.divisionByZero m.location)
      else (m.result (m.registers.accumulator.value.tdiv divisor.value)).map .accumulate)).view
        unread output =
      (m.view unread output).quotient divisor.value := by
  unfold Reference.State.quotient
  by_cases zero : divisor.value = 0
  · rw [if_pos (by simp [Word.isZero, zero]), if_pos zero]
    exact view_fault whole rfl
  · rw [if_neg (by simp [Word.isZero, zero]), if_neg zero]
    have inside := quotient_isWord m.registers.accumulator divisor.value
    rw [result, ofInt?_of_isWord inside]
    exact view_accumulate whole _

theorem view_exchange (whole : m.Whole) :
    (m.settle m.exchange).view unread output = (m.view unread output).exchange :=
  view_result whole (toInt_index m.registers) (fun w => .exchange w m.registers.accumulator.toIndex)
    (m.view unread output).swapIn (fun w => view_swapIn whole w)

theorem view_arithmetic_direct (whole : m.Whole) (direct : m.current.opcode.isIndexed = false)
    {f : Int → Int → Int} (bounds : ∀ a b : Word,
      -999998000001 ≤ f a.value b.value ∧ f a.value b.value ≤ 999998000001) :
    (m.settle (m.arithmetic m.current f)).view unread output =
      (m.view unread output).total (f m.registers.accumulator.value (m.cell m.operand)) :=
  view_direct whole direct _ (fun right => (m.view unread output).total (f _ right))
    fun right => view_total whole (bounds _ right)

theorem view_arithmetic_at_index (whole : m.Whole) (indexed : m.current.opcode.isIndexed = true)
    {f : Int → Int → Int} (bounds : ∀ a b : Word,
      -999998000001 ≤ f a.value b.value ∧ f a.value b.value ≤ 999998000001) :
    (m.settle (m.arithmetic m.current f)).view unread output =
      (m.view unread output).indexed fun address =>
        (m.view unread output).total (f m.registers.accumulator.value (m.cell address)) :=
  view_at_index whole indexed _ (fun right => (m.view unread output).total (f _ right))
    fun right => view_total whole (bounds _ right)

theorem view_division_direct (whole : m.Whole) (direct : m.current.opcode.isIndexed = false) :
    (m.settle (m.division m.current)).view unread output =
      (m.view unread output).quotient (m.cell m.operand) :=
  view_direct whole direct _ (m.view unread output).quotient (view_quotient whole)

theorem view_division_at_index (whole : m.Whole) (indexed : m.current.opcode.isIndexed = true) :
    (m.settle (m.division m.current)).view unread output =
      (m.view unread output).indexed fun address =>
        (m.view unread output).quotient (m.cell address) :=
  view_at_index whole indexed _ (m.view unread output).quotient (view_quotient whole)

/-! ### Stores and branches -/

theorem view_store_direct (whole : m.Whole) (direct : m.current.opcode.isIndexed = false)
    (w : Word) :
    (m.settle ((m.effectiveAddress m.current).bind fun address => m.storing address w)).view
        unread output =
      (m.view unread output).store m.operand w.value := by
  rw [effectiveAddress_direct direct, ← operand_address]
  exact view_storing whole m.operand_lt w

theorem view_store_at_index (whole : m.Whole) (indexed : m.current.opcode.isIndexed = true)
    (w : Word) :
    (m.settle ((m.effectiveAddress m.current).bind fun address => m.storing address w)).view
        unread output =
      (m.view unread output).indexed fun address => (m.view unread output).store address w.value :=
  view_indexed whole indexed _ _ fun _ inside => view_storing whole inside w

theorem view_branch : (m.settle (.ok (.jump m.current.operand.toUInt64))).view unread output =
    (m.view unread output).jump m.operand := by
  rw [view_jump, UInt16.toNat_toUInt64, current_operand]

theorem location_eq_three (whole : m.Whole) :
    m.location = 3 ↔ (m.view unread output).counter = 3 := by
  have same := counter_val whole
  constructor
  · intro here
    have three : m.registers.counter = 3 := here
    simp only [view, three]
    rfl
  · intro here
    have three : (Reference.address m.registers.counter.toNat).val = 3 := congrArg Fin.val here
    exact UInt64.toNat_inj.mp (same.symm.trans three)

theorem view_branchOnSign (whole : m.Whole) :
    (m.settle (.ok (m.branchOnSign m.current.operand.toUInt64))).view unread output =
      if m.registers.accumulator.value < 0 then (m.view unread output).jump m.operand
      else if (m.view unread output).counter = 3 then (m.view unread output).jump 0
      else (m.view unread output).advance := by
  unfold branchOnSign
  by_cases negative : m.registers.accumulator.value < 0
  · rw [if_pos (by simpa [Word.isNegative] using negative), if_pos negative]
    exact view_branch
  · rw [if_neg (by simpa [Word.isNegative] using negative), if_neg negative]
    by_cases here : m.location = 3
    · rw [if_pos (beq_iff_eq.mpr here), if_pos ((location_eq_three whole).mp here)]
      exact view_jump 0
    · rw [if_neg (mt beq_iff_eq.mp here), if_neg (mt (location_eq_three whole).mpr here)]
      exact view_nothing whole

theorem view_branchOnZero (whole : m.Whole) :
    (m.settle (.ok (m.branchOnZero m.current.operand.toUInt64))).view unread output =
      if m.registers.accumulator.value = 0 then (m.view unread output).jump m.operand
      else (m.view unread output).advance := by
  unfold branchOnZero
  by_cases zero : m.registers.accumulator.value = 0
  · rw [if_pos (by simpa [Word.isZero] using zero), if_pos zero]
    exact view_branch
  · rw [if_neg (by simpa [Word.isZero] using zero), if_neg zero]
    exact view_nothing whole

/-! ### The instruction set -/

theorem code_of (m : Machine) {op : Opcode} (current : m.current.opcode = op) :
    m.registers.instruction.value.natAbs / 10000 = op.code.toNat := by
  rw [current_code, current]

theorem map_change {α : Type} (computed : Except Fault α) (f : α → Change) :
    (computed.map fun a => Action.change (f a)) =
      (computed.bind fun a => .ok (f a)).map .change := by
  cases computed <;> rfl

theorem bind_map {α : Type} (computed : Except Fault α) (f : α → Except Fault Change) :
    (computed.bind fun a => (f a).map Action.change) = (computed.bind f).map .change := by
  cases computed <;> rfl

/-- The latched instruction comes to this without the console, and the table agrees. -/
structure Follows (m : Machine) (computed : Except Fault Change) : Prop where
  planned : m.plan m.current = computed.map .change
  leads : ∀ unread output, (m.settle computed).view unread output =
    (m.view unread output).execute m.registers.instruction.value

theorem follows_of {computed : Except Fault Change} {op : Opcode} (current : m.current.opcode = op)
    (planned : m.plan m.current = computed.map .change)
    (leads : ∀ unread output, (m.settle computed).view unread output =
      (m.view unread output).perform m.registers.instruction.value m.operand op.code.toNat) :
    m.Follows computed := by
  refine ⟨planned, fun unread output => ?_⟩
  rw [leads, ← m.code_of current]
  rfl

theorem unknown_follows (whole : m.Whole) {code : UInt8} (op : m.current.opcode = .unknown code) :
    m.Follows (.error (.unknownOpcode code m.location)) := by
  have named : code = m.registers.instruction.opcode ∧ ∀ op ∈ Opcode.all, op.code ≠ code := by
    obtain ⟨rfl, unnamed⟩ := Opcode.ofCode_eq_unknown op
    exact ⟨rfl, unnamed⟩
  have outside : ∀ op ∈ Opcode.all, op.code.toNat ≠ code.toNat :=
    fun op recognized same => named.2 op recognized (UInt8.toNat_inj.mp same)
  simp only [Opcode.all, List.forall_mem_cons] at outside
  refine follows_of op (by rw [plan, op]; rfl) fun unread output => ?_
  rw [view_fault whole rfl]
  unfold Reference.State.perform
  -- Every row but the last belongs to a recognized code.
  split <;> simp_all [Opcode.code, Fault.reason]

theorem plan_follows (whole : m.Whole) (op_silent : m.current.opcode ≠ .read)
    (op_mute : m.current.opcode ≠ .write) : ∃ computed, m.Follows computed := by
  cases op : m.current.opcode with
  | read => exact absurd op op_silent
  | write => exact absurd op op_mute
  | load =>
    refine ⟨_, follows_of op (by rw [plan, op]; exact map_change _ _) fun _ _ => ?_⟩
    exact view_direct whole (by rw [op]; rfl) _ _ (view_accumulate whole)
  | loadImmediate =>
    refine ⟨.ok (.accumulate _), follows_of op (by rw [plan, op]; rfl) fun _ _ => ?_⟩
    rw [view_accumulate whole, immediate_value]
    rfl
  | loadIndex =>
    refine ⟨_, follows_of op (by rw [plan, op]; exact map_change _ _) fun _ _ => ?_⟩
    exact view_direct whole (by rw [op]; rfl) _
      (fun value => Reference.State.setIndex _ (Int32.ofInt value))
      fun w => view_setIndex whole w.toIndex
  | loadIndexed =>
    refine ⟨_, follows_of op (by rw [plan, op]; exact map_change _ _) fun _ _ => ?_⟩
    exact view_at_index whole (by rw [op]; rfl) _ _ (view_accumulate whole)
  | store =>
    refine ⟨_, follows_of op (by rw [plan, op]; exact bind_map _ _) fun _ _ => ?_⟩
    exact view_store_direct whole (by rw [op]; rfl) _
  | storeIndexed =>
    refine ⟨_, follows_of op (by rw [plan, op]; exact bind_map _ _) fun _ _ => ?_⟩
    exact view_store_at_index whole (by rw [op]; rfl) _
  | add =>
    refine ⟨m.arithmetic m.current (· + ·), follows_of op (by rw [plan, op]) fun _ _ => ?_⟩
    exact view_arithmetic_direct whole (by rw [op]; rfl) sum_bounds
  | addIndexed =>
    refine ⟨m.arithmetic m.current (· + ·), follows_of op (by rw [plan, op]) fun _ _ => ?_⟩
    exact view_arithmetic_at_index whole (by rw [op]; rfl) sum_bounds
  | subtract =>
    refine ⟨m.arithmetic m.current (· - ·), follows_of op (by rw [plan, op]) fun _ _ => ?_⟩
    exact view_arithmetic_direct whole (by rw [op]; rfl) difference_bounds
  | subtractIndexed =>
    refine ⟨m.arithmetic m.current (· - ·), follows_of op (by rw [plan, op]) fun _ _ => ?_⟩
    exact view_arithmetic_at_index whole (by rw [op]; rfl) difference_bounds
  | multiply =>
    refine ⟨m.arithmetic m.current (· * ·), follows_of op (by rw [plan, op]) fun _ _ => ?_⟩
    exact view_arithmetic_direct whole (by rw [op]; rfl) product_bounds
  | multiplyIndexed =>
    refine ⟨m.arithmetic m.current (· * ·), follows_of op (by rw [plan, op]) fun _ _ => ?_⟩
    exact view_arithmetic_at_index whole (by rw [op]; rfl) product_bounds
  | divide =>
    refine ⟨m.division m.current, follows_of op (by rw [plan, op]) fun _ _ => ?_⟩
    exact view_division_direct whole (by rw [op]; rfl)
  | divideIndexed =>
    refine ⟨m.division m.current, follows_of op (by rw [plan, op]) fun _ _ => ?_⟩
    exact view_division_at_index whole (by rw [op]; rfl)
  | increment =>
    refine ⟨.ok (.setIndex _), follows_of op (by rw [plan, op]; rfl) fun _ _ => ?_⟩
    exact view_setIndex whole _
  | decrement =>
    refine ⟨.ok (.setIndex _), follows_of op (by rw [plan, op]; rfl) fun _ _ => ?_⟩
    exact view_setIndex whole _
  | branch =>
    refine ⟨.ok (.jump _), follows_of op (by rw [plan, op]; rfl) fun _ _ => ?_⟩
    exact view_branch
  | branchNeg =>
    refine ⟨.ok (m.branchOnSign _), follows_of op (by rw [plan, op]; rfl) fun _ _ => ?_⟩
    exact view_branchOnSign whole
  | branchZero =>
    refine ⟨.ok (m.branchOnZero _), follows_of op (by rw [plan, op]; rfl) fun _ _ => ?_⟩
    exact view_branchOnZero whole
  | swap =>
    refine ⟨m.exchange, follows_of op (by rw [plan, op]) fun _ _ => ?_⟩
    exact view_exchange whole
  | halt =>
    refine ⟨.ok (.halt _ _), follows_of op (by rw [plan, op]; rfl) fun _ _ => ?_⟩
    rw [view_halt, current_operand]
    rfl
  | unknown code => exact ⟨_, unknown_follows whole op⟩

end DecimalMachine.Machine
