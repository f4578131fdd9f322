import DecimalMachine.Proofs.Execution
import DecimalMachine.Proofs.ExitStatus
import DecimalMachine.Proofs.Footprint

/-!
Which faults there are.

`Raises` is the catalogue: which operation raises which fault, and what the fault carries. It holds
of every machine that has all its cells, so that the bounds checks on a cell that an operand or an
accepted index names never fail. Each function that a plan is made of has its own lemma, as in
`Plan`, and `plan_raises` goes through the instruction set once.
-/

namespace DecimalMachine

namespace Opcode

def indexedForms : List Opcode :=
  [.loadIndexed, .storeIndexed, .addIndexed, .subtractIndexed, .divideIndexed, .multiplyIndexed]

theorem isIndexed_iff {op : Opcode} : op.isIndexed = true ↔ op ∈ indexedForms := by
  cases op <;> simp [isIndexed, indexedForms]

/-- The exact results of the operations that add, subtract or multiply. -/
inductive Combines (x y : Int) : Opcode → Int → Prop where
  | add : Combines x y .add (x + y)
  | addIndexed : Combines x y .addIndexed (x + y)
  | subtract : Combines x y .subtract (x - y)
  | subtractIndexed : Combines x y .subtractIndexed (x - y)
  | multiply : Combines x y .multiply (x * y)
  | multiplyIndexed : Combines x y .multiplyIndexed (x * y)

theorem Combines.bounds {x y : Word} {op : Opcode} {value : Int}
    (combines : Combines x.value y.value op value) :
    -999998000001 ≤ value ∧ value ≤ 999998000001 := by
  cases combines with
  | add | addIndexed => exact Machine.sum_bounds x y
  | subtract | subtractIndexed => exact Machine.difference_bounds x y
  | multiply | multiplyIndexed => exact Machine.product_bounds x y

end Opcode

namespace Machine

def IndexInside (m : Machine) : Prop :=
  0 ≤ m.registers.index.toInt ∧ m.registers.index.toInt < 10000

instance (m : Machine) : Decidable m.IndexInside := inferInstanceAs (Decidable (_ ∧ _))

/-- The cell that the instruction addresses holds this word. -/
def WorksOn (m : Machine) (i : Instruction) (w : Word) : Prop :=
  ∃ cell, m.Addresses i cell ∧ m.memory.cells[cell]? = some w

/-- The faults that an instruction can raise, with what they carry. -/
inductive Raises (m : Machine) (i : Instruction) : Fault → Prop where
  | unknownOpcode (code : UInt8) (op : i.opcode = .unknown code) :
      Raises m i (.unknownOpcode code m.location)
  | outOfRange {address : Int64} (op : i.opcode ∈ Opcode.indexedForms) (outside : ¬ m.IndexInside)
      (carried : address.toInt = m.registers.index.toInt) :
      Raises m i (.outOfRange address m.location)
  | divisionByZero {divisor : Word} (op : i.opcode = .divide ∨ i.opcode = .divideIndexed)
      (works : m.WorksOn i divisor) (zero : divisor.value = 0) :
      Raises m i (.divisionByZero m.location)
  | combined {right : Word} {value : Int64} (works : m.WorksOn i right)
      (carried : Opcode.Combines m.registers.accumulator.value right.value i.opcode value.toInt)
      (lower : 1000000 ≤ value.toInt.natAbs) (upper : value.toInt.natAbs ≤ 999998000001) :
      Raises m i (.accumulatorOverflow value m.location)
  | swapped {value : Int64} (op : i.opcode = .swap)
      (carried : value.toInt = m.registers.index.toInt) (lower : 1000000 ≤ value.toInt.natAbs) :
      Raises m i (.accumulatorOverflow value m.location)
  | invalidInput {value : Int64} (op : i.opcode = .read)
      (outside : value.toInt < -999999 ∨ 999999 < value.toInt) :
      Raises m i (.invalidInput value m.location)
  | inputExhausted (op : i.opcode = .read) : Raises m i (.inputExhausted m.location)

variable {m : Machine} {i : Instruction}

/-! ### The address -/

theorem effectiveAddress_of_outside (op : i.opcode ∈ Opcode.indexedForms)
    (outside : ¬ m.IndexInside) :
    m.effectiveAddress i = .error (.outOfRange m.registers.indexAddress m.location) := by
  rw [IndexInside, ← m.registers.indexAddress_toInt] at outside
  unfold effectiveAddress
  rw [if_pos (Opcode.isIndexed_iff.mpr op), Memory.index_of_outside outside]

theorem effectiveAddress_of_inside (op : i.opcode ∈ Opcode.indexedForms) (inside : m.IndexInside) :
    m.effectiveAddress i = .ok m.registers.indexAddress.toUInt64 := by
  rw [IndexInside, ← m.registers.indexAddress_toInt] at inside
  unfold effectiveAddress
  rw [if_pos (Opcode.isIndexed_iff.mpr op), (Memory.index_of_inside inside).1]

theorem effectiveAddress_raises (operand : i.operand.toNat < 10000) :
    Yields (m.Raises i) (fun address => address.toNat < 10000 ∧ m.Addresses i address.toNat)
      (m.effectiveAddress i) := by
  by_cases op : i.opcode ∈ Opcode.indexedForms
  · by_cases inside : m.IndexInside
    · have given := effectiveAddress_of_inside op inside
      have addressed := (addresses_iff given _).mpr rfl
      rw [given]
      refine ⟨?_, addressed⟩
      rw [Addresses, if_pos (Opcode.isIndexed_iff.mpr op)] at addressed
      have := inside.2
      omega
    · rw [effectiveAddress_of_outside op inside]
      exact .outOfRange op inside m.registers.indexAddress_toInt
  · have given : m.effectiveAddress i = .ok i.operand.toUInt64 := by
      unfold effectiveAddress
      rw [if_neg (mt Opcode.isIndexed_iff.mp op)]
    have addressed := (addresses_iff given _).mpr rfl
    rw [given]
    exact ⟨by rwa [UInt16.toNat_toUInt64], addressed⟩

/-! ### The parts of a plan -/

theorem wordAt_of_lt (size : m.memory.cells.size = 10000) {address : UInt64}
    (inside : address.toNat < 10000) :
    ∃ w, m.wordAt address = .ok w ∧ m.memory.cells[address.toNat]? = some w := by
  have found := Memory.read_of_lt (m := m.memory) (size.symm ▸ inside)
  exact ⟨_, by simp only [wordAt, found], Memory.read_eq_ok_iff.mp found⟩

theorem operandWord_raises (size : m.memory.cells.size = 10000)
    (operand : i.operand.toNat < 10000) :
    Yields (m.Raises i) (m.WorksOn i) (m.operandWord i) := by
  apply (effectiveAddress_raises operand).bind
  rintro address ⟨inside, addressed⟩
  obtain ⟨w, given, found⟩ := wordAt_of_lt size inside
  rw [given]
  exact ⟨_, addressed, found⟩

theorem result_raises {value : Int} (fits : (Int64.ofInt value).toInt = value) :
    Yields (fun fault => ∃ v : Int64, fault = .accumulatorOverflow v m.location ∧ v.toInt = value ∧
      1000000 ≤ v.toInt.natAbs) (fun _ => True) (m.result value) := by
  unfold result
  split
  · trivial
  · rename_i unmade
    refine ⟨_, rfl, fits, ?_⟩
    have := Word.ofInt?_eq_none_iff.mp unmade
    omega

theorem arithmetic_raises (size : m.memory.cells.size = 10000) (operand : i.operand.toNat < 10000)
    {f : Int → Int → Int} (combines : ∀ x y, Opcode.Combines x y i.opcode (f x y)) :
    Yields (m.Raises i) (fun _ => True) (m.arithmetic i f) := by
  apply (operandWord_raises size operand).bind
  intro right works
  have bounds := (combines m.registers.accumulator.value right.value).bounds
  refine ((result_raises (toInt_overflow bounds.1 bounds.2)).weaken ?_).map fun _ _ => trivial
  rintro fault ⟨v, rfl, carried, lower⟩
  exact .combined works (carried ▸ combines _ _) lower (by omega)

theorem division_raises (size : m.memory.cells.size = 10000) (operand : i.operand.toNat < 10000)
    (op : i.opcode = .divide ∨ i.opcode = .divideIndexed) :
    Yields (m.Raises i) (fun _ => True) (m.division i) := by
  apply (operandWord_raises size operand).bind
  intro divisor works
  by_cases zero : divisor.value = 0
  · rw [if_pos (by simp [Word.isZero, zero])]
    exact .divisionByZero op works zero
  · -- The quotient of a word is a word.
    rw [if_neg (by simp [Word.isZero, zero]), result,
      ofInt?_of_isWord (quotient_isWord m.registers.accumulator divisor.value)]
    trivial

theorem exchange_raises (op : i.opcode = .swap) :
    Yields (m.Raises i) (fun _ => True) m.exchange := by
  refine ((result_raises (toInt_index m.registers)).weaken ?_).map fun _ _ => trivial
  rintro fault ⟨v, rfl, carried, lower⟩
  exact .swapped op carried lower

/-! ### The instruction set -/

theorem plan_raises (size : m.memory.cells.size = 10000) (operand : i.operand.toNat < 10000) :
    Yields (m.Raises i) (fun _ => True) (m.plan i) := by
  have operandWord := operandWord_raises (m := m) size operand
  have combined {f : Int → Int → Int} (combines : ∀ x y, Opcode.Combines x y i.opcode (f x y)) :
      Yields (m.Raises i) (fun _ => True) ((m.arithmetic i f).map Action.change) :=
    (arithmetic_raises size operand combines).map fun _ _ => trivial
  cases op : i.opcode with
  | write | load | loadIndexed | loadIndex =>
    simp only [plan, op]
    exact operandWord.map fun _ _ => trivial
  | store | storeIndexed =>
    simp only [plan, op]
    apply (effectiveAddress_raises operand).bind
    rintro address ⟨inside, -⟩
    rw [storing_of_lt size inside]
    trivial
  | add | addIndexed | subtract | subtractIndexed | multiply | multiplyIndexed =>
    simp only [plan, op]
    apply combined
    intro x y
    rw [op]
    constructor
  | divide =>
    simp only [plan, op]
    exact (division_raises size operand (.inl op)).map fun _ _ => trivial
  | divideIndexed =>
    simp only [plan, op]
    exact (division_raises size operand (.inr op)).map fun _ _ => trivial
  | swap =>
    simp only [plan, op]
    exact (exchange_raises op).map fun _ _ => trivial
  | unknown code =>
    simp only [plan, op]
    exact .unknownOpcode code op
  | _ =>
    simp only [plan, op]
    trivial

theorem receive_raises (size : m.memory.cells.size = 10000) (op : i.opcode = .read)
    {address : UInt64} (inside : address.toNat < 10000) (value : Option Int64) :
    Yields (m.Raises i) (fun _ => True) (m.receive address value) := by
  unfold receive
  split
  · exact .inputExhausted op
  · split
    · rename_i value _ unmade
      apply Raises.invalidInput op
      unfold Word.ofInt64 at unmade
      split at unmade
      · cases unmade
      · exact Word.ofInt?_eq_none_iff.mp ‹_›
    · rw [storing_of_lt size inside]
      trivial

theorem Settles.raises {fault : Fault} (settles : m.Settles (.error fault))
    (size : m.memory.cells.size = 10000) : m.Raises m.current fault := by
  have operand : m.current.operand.toNat < 10000 := by
    rw [current_operand]
    exact m.operand.isLt
  generalize outcome : (.error fault : Except Fault Change) = settled at settles
  cases settles with
  | refused planned =>
    cases outcome
    exact (plan_raises size operand).of_error planned
  | changed | printed => cases outcome
  | answered value planned =>
    cases (m.plan_yields m.current).of_ok planned with
    | ask op => exact (receive_raises size op m.operand_lt value).of_error outcome.symm

theorem plan_of_outside (op : i.opcode ∈ Opcode.indexedForms) (outside : ¬ m.IndexInside) :
    m.plan i = .error (.outOfRange m.registers.indexAddress m.location) := by
  have refused := effectiveAddress_of_outside op outside
  have word : m.operandWord i = .error (.outOfRange m.registers.indexAddress m.location) := by
    rw [operandWord, refused]
    rfl
  simp only [Opcode.indexedForms, List.mem_cons, List.not_mem_nil, or_false] at op
  rcases op with op | op | op | op | op | op <;>
    simp only [plan, op, arithmetic, division, word, refused] <;> rfl

/-! ### Steps -/

def Announces {ω : Type} [Sink ω] (m : Machine) (output : ω) : Prop :=
  m.trace = true → ∃ output', Sink.write (m.announcement ++ "\n") output = .ok () output'

theorem announces_of_reliable {ω : Type} [Sink ω] {holds : ω → String → Prop}
    (reliable : Reliable holds) {output : ω} {text : String} (held : holds output text) :
    m.Announces output := by
  intro _
  obtain ⟨output', taken, -⟩ := reliable.write (m.announcement ++ "\n") held
  exact ⟨output', taken⟩

variable {ι ω : Type}

theorem announce_ok_iff [Sink ω] {c : Console ι ω} :
    (∃ c', m.announce c = .ok () c') ↔ m.Announces c.output := by
  obtain ⟨input, output, journal⟩ := c
  have noted : m.announce ⟨input, output, journal⟩ =
    (if m.trace then Console.writeLine m.announcement else pure ())
      ⟨input, output, journal.note (.fetched m.location m.registers.instruction)⟩ := rfl
  rw [noted, Announces]
  cases m.trace with
  | false => exact ⟨fun _ => nofun, fun _ => ⟨_, rfl⟩⟩
  | true =>
    simp only [if_true, Console.writeLine, Console.write, Console.onOutput]
    cases written : (Sink.write (m.announcement ++ "\n") : EStateM IoError ω Unit) output <;> simp

theorem notice_eq (m : Machine) (settled : Except Fault Change) (c : Console ι ω) :
    ∃ journal, m.notice settled c = .ok () ⟨c.input, c.output, journal⟩ := by
  unfold notice
  split <;> exact ⟨_, rfl⟩

theorem perform_of_computed [Source ι] [Sink ω] {c c₁ : Console ι ω}
    (announced : m.announce c = .ok () c₁) (computed : Except Fault Change)
    (planned : m.plan m.current = computed.map .change) :
    ∃ journal, m.perform c = .ok computed ⟨c₁.input, c₁.output, journal⟩ := by
  obtain ⟨journal, noticed⟩ := m.notice_eq computed c₁
  refine ⟨journal, ?_⟩
  cases computed with
  | error fault =>
    simp only [perform, bind, EStateM.bind, pure, EStateM.pure, announced,
      planned, Except.map, noticed]
  | ok change =>
    simp only [perform, bind, EStateM.bind, pure, EStateM.pure, announced, planned, Except.map,
      carryOut, noticed]

end Machine

variable {ι ω : Type} [Source ι] [Sink ω]

theorem Machine.Raises.of_withInstruction {m : Machine} {w : Word} {i : Instruction} {fault : Fault}
    (raises : (m.withInstruction w).Raises i fault) : m.Raises i fault := by
  cases raises with
  | unknownOpcode code op => exact .unknownOpcode code op
  | outOfRange op outside carried => exact .outOfRange op outside carried
  | divisionByZero op works zero => exact .divisionByZero op works zero
  | combined works carried lower upper => exact .combined works carried lower upper
  | swapped op carried lower => exact .swapped op carried lower
  | invalidInput op outside => exact .invalidInput op outside
  | inputExhausted op => exact .inputExhausted op

theorem step_raises {s last : Session ι ω} {fault : Fault} (sound : s.machine.Sound)
    (failed : step s = .error (.fault fault) last) :
    ∃ i, s.machine.next? = some i ∧ s.machine.Raises i fault := by
  obtain ⟨m, c⟩ := s
  have ended := step_cases m c
  rw [failed] at ended
  cases ended with
  | @faulted w fault c' running fetched performed =>
    have raises := (Machine.perform_settles performed).raises sound.size
    exact ⟨_, Machine.next?_of_latched (Machine.latch_of_read running fetched),
      raises.of_withInstruction⟩

theorem step_outOfRange_iff {s : Session ι ω} {address : Int64} {location : UInt64}
    (sound : s.machine.Sound) :
    (∃ last, step s = .error (.fault (.outOfRange address location)) last) ↔
      ∃ l, s.machine.latch = .ok l ∧ l.Announces s.console.output ∧
        l.current.opcode ∈ Opcode.indexedForms ∧ ¬ s.machine.IndexInside ∧
        address.toInt = s.machine.registers.index.toInt ∧
        location = s.machine.registers.counter := by
  obtain ⟨m, c⟩ := s
  constructor
  · rintro ⟨last, failed⟩
    have ended := step_cases m c
    rw [failed] at ended
    cases ended with
    | @faulted w fault c' running fetched performed =>
      obtain ⟨_, c₁, announced, -⟩ := bind_eq_ok performed
      have raises := (Machine.perform_settles performed).raises sound.size
      refine ⟨_, Machine.latch_of_read running fetched,
        Machine.announce_ok_iff.mp ⟨c₁, announced⟩, ?_⟩
      cases raises with
      | outOfRange op outside carried => exact ⟨op, outside, carried, rfl⟩
  · rintro ⟨l, latched, announces, op, outside, carried, rfl⟩
    obtain ⟨running, w, fetched, rfl⟩ := Machine.latch_eq_ok latched
    obtain ⟨c₁, announced⟩ := Machine.announce_ok_iff.mpr announces
    obtain ⟨journal, performed⟩ := Machine.perform_of_computed announced
      (.error _) (Machine.plan_of_outside op outside)
    have carried : (m.withInstruction w).registers.indexAddress = address :=
      Int64.toInt_inj.mp (m.registers.indexAddress_toInt.trans carried.symm)
    rw [carried] at performed
    refine ⟨⟨{ m.withInstruction w with state := .faulted (.outOfRange address m.location) },
      ⟨c₁.input, c₁.output, journal⟩⟩, ?_⟩
    simp only [step, latched, performed]
    rfl

/-! ### Runs -/

/-- A run of the session, reported or not, fails with this error. A fault that is reported is one
that the run failed with. -/
inductive Session.RunFails (s : Session ι ω) : StepError → Prop where
  | run {e : StepError} {last : Session ι ω} (ended : run s = some (.error e last)) : RunFails s e
  | limited {max : UInt64} {e : StepError} {last : Session ι ω}
      (ended : runLimited max s = .error e last) : RunFails s e
  | returned {config : Config} {e : StepError} {last : Session ι ω}
      (ended : execute config s = some (.error e last)) : RunFails s e
  | reported {config : Config} {fault : Fault} {last : Session ι ω}
      (ended : execute config s = some (.ok (.faulted fault) last)) : RunFails s (.fault fault)

/-- The fault is raised by a step of the run from `start`. -/
def Session.RaisedIn (start : Session ι ω) (fault : Fault) : Prop :=
  ∃ passed stuck i last, Steps start passed stuck ∧ step stuck = .error (.fault fault) last ∧
    stuck.machine.next? = some i ∧ stuck.machine.Raises i fault

theorem Steps.failure {s stuck last : Session ι ω} {passed : List (Session ι ω)} {e : StepError}
    (steps : Steps s passed stuck) (sound : s.machine.Sound)
    (running : stuck.machine.state = .running) (failed : step stuck = .error e last) :
    (∃ f, e = .io f) ∨ ∃ fault, e = .fault fault ∧ s.RaisedIn fault := by
  have sound := steps.sound sound
  rcases sound.step_error running failed with ⟨f, rfl⟩ | ⟨fault, rfl⟩
  · exact .inl ⟨f, rfl⟩
  · obtain ⟨i, next, raises⟩ := step_raises sound failed
    exact .inr ⟨fault, rfl, passed, stuck, i, last, steps, failed, next, raises⟩

theorem Session.RunFails.accounted {s : Session ι ω} {e : StepError} (fails : s.RunFails e)
    (sound : s.machine.Sound) :
    (∃ f, e = .io f) ∨ ∃ fault, e = .fault fault ∧
      ∃ start, (start = s ∨ ∃ config, openReport config s = .ok () start) ∧
        start.RaisedIn fault := by
  cases fails with
  | run ended =>
    obtain ⟨passed, stuck, steps, -, running, failed⟩ := run_error_iff.mp ended
    exact (steps.failure sound running failed).imp_right fun ⟨fault, same, raised⟩ =>
      ⟨fault, same, s, .inl rfl, raised⟩
  | limited ended =>
    obtain ⟨passed, stuck, steps, -, running, failed⟩ := runLimited_error_iff.mp ended
    exact (steps.failure sound running failed).imp_right fun ⟨fault, same, raised⟩ =>
      ⟨fault, same, s, .inl rfl, raised⟩
  | returned ended => exact .inl (execute_error sound ended)
  | @reported config fault last ended =>
    obtain ⟨opened, r, opening, ran, reported⟩ := execute_ok ended
    obtain ⟨tried, course⟩ := runConfigured_course ran
    obtain ⟨same, -⟩ := reportResult_ok reported
    cases course with
    | @completed _ after =>
      -- A run that ends well is reported as halted or as suspended.
      cases state : after.machine.state <;> simp [reportedAs, Outcome.ofState, state] at same
    | failed steps room running failed =>
      rcases steps.failure (sound.opened opening) running failed with ⟨f, rfl⟩ | ⟨_, rfl, raised⟩
      · cases same
      · cases same
        exact .inr ⟨_, rfl, opened, .inr ⟨config, opening⟩, raised⟩

/-- Which errors and faults a machine that comes from a fresh one can meet. A cell is never missing,
a run is never refused, and whatever fault stops a step or a run is in the catalogue. -/
theorem faults_accounted {s : Session ι ω} (reachable : Reachable s.machine) :
    (∀ err last, step s ≠ .error (.memory err) last) ∧
    (∀ fault last, step s = .error (.fault fault) last →
      ∃ i, s.machine.next? = some i ∧ s.machine.Raises i fault) ∧
    (∀ address location, (∃ last, step s = .error (.fault (.outOfRange address location)) last) ↔
      ∃ l, s.machine.latch = .ok l ∧ l.Announces s.console.output ∧
        l.current.opcode ∈ Opcode.indexedForms ∧ ¬ s.machine.IndexInside ∧
        address.toInt = s.machine.registers.index.toInt ∧
        location = s.machine.registers.counter) ∧
    ∀ e, s.RunFails e →
      (∀ err, e ≠ .memory err) ∧ (∀ state, e ≠ .notRunning state) ∧
      ∀ fault, e = .fault fault →
        ∃ start, (start = s ∨ ∃ config, openReport config s = .ok () start) ∧
          start.RaisedIn fault := by
  have sound := Machine.Sound.of_reachable reachable
  refine ⟨?_, fun _ _ => step_raises sound, fun _ _ => step_outOfRange_iff sound, ?_⟩
  · intro err last failed
    by_cases running : s.machine.state = .running
    · rcases sound.step_error running failed with ⟨f, same⟩ | ⟨fault, same⟩ <;> cases same
    · cases (step_stopped running).symm.trans failed
  · intro e fails
    rcases fails.accounted sound with ⟨f, rfl⟩ | ⟨fault, rfl, raised⟩
    · exact ⟨nofun, nofun, nofun⟩
    · refine ⟨nofun, nofun, ?_⟩
      rintro fault' ⟨⟩
      exact raised

-- A blank memory with `DEC` in its first cell.
def countingDown : Memory := Memory.blank.set 0 ⟨390000, by decide, by decide⟩

-- The same with `LOADIDX` in the next cell.
def strayMemory : Memory := countingDown.set 1 ⟨230000, by decide, by decide⟩

def straying : Session Script Transcript :=
  ⟨{ Machine.fresh with memory := strayMemory }, ⟨⟨[]⟩, {}, {}⟩⟩

theorem faults_accounted_straying :
    ∃ after i last, step straying = .ok ⟨.decrement, 0⟩ after ∧ Reachable after.machine ∧
      step after = .error (.fault (.outOfRange (-1) 1)) last ∧
      after.machine.next? = some i ∧ after.machine.Raises i (.outOfRange (-1) 1) := by
  have first : Memory.blank.contains 0 = true := Memory.contains_blank (by decide)
  have second : countingDown.contains 1 = true := by
    rw [countingDown, Memory.contains_set]
    exact Memory.contains_blank (by decide)
  have written : Memory.blank.write 0 ⟨390000, by decide, by decide⟩ = .ok countingDown :=
    if_pos first
  have written' : countingDown.write 1 ⟨230000, by decide, by decide⟩ = .ok strayMemory :=
    if_pos second
  have poked : Reachable { Machine.fresh with memory := countingDown } := .poke 0 _ .fresh written
  have start : Reachable straying.machine :=
    Reachable.poke (m := { Machine.fresh with memory := countingDown }) 1 _ poked written'
  have fetched : strayMemory.read 0 = .ok ⟨390000, by decide, by decide⟩ :=
    (Memory.read_set_of_ne (by decide) _).trans (Memory.read_set_self first _)
  have fetched' : strayMemory.read 1 = .ok ⟨230000, by decide, by decide⟩ :=
    Memory.read_set_self second _
  have latched : straying.machine.latch = _ := Machine.latch_of_read rfl fetched
  obtain ⟨after, done, memory, counter, index, state, limit⟩ : ∃ after,
      step straying = .ok ⟨.decrement, 0⟩ after ∧ after.machine.memory = strayMemory ∧
      after.machine.registers.counter = 1 ∧ after.machine.registers.index = -1 ∧
      after.machine.state = .running ∧ after.console.output.limit = none := by
    simp only [step, latched]
    exact ⟨_, rfl, rfl, rfl, rfl, rfl, rfl⟩
  have reachable : Reachable after.machine := .completed start (by decide) done
  have holds := faults_accounted reachable
  have latched' := Machine.latch_of_read (m := after.machine) state (by
    rw [memory, Machine.location, counter]
    exact fetched')
  have op : (Instruction.ofWord ⟨230000, by decide, by decide⟩).opcode ∈ Opcode.indexedForms := by
    decide
  have outside : ¬ after.machine.IndexInside := by
    rw [Machine.IndexInside, index]
    decide
  obtain ⟨last, failed⟩ := (holds.2.2.1 (-1) 1).mpr
    ⟨_, latched', Machine.announces_of_reliable Transcript.reliable ⟨limit, rfl⟩,
      op, outside, by rw [index]; rfl, counter.symm⟩
  obtain ⟨i, next, raises⟩ := holds.2.1 _ _ failed
  exact ⟨after, i, last, done, reachable, failed, next, raises⟩

end DecimalMachine
