import DecimalMachine.Proofs.Execution
import DecimalMachine.Proofs.Intake
import DecimalMachine.Proofs.Report

/-!
The accounts of a run: what it took, what it counted and what it said.

Each completed `READ` has stored the value that it took, in their order, and a run that a value has
stopped has taken that one besides. Each completed step is counted. Each `READ` has asked and each
`WRITE` has told what it addresses, whether it was completed or not.
-/

namespace DecimalMachine

variable {ι ω : Type}

def completed {α : Type} (tried : List (Session ι ω)) :
    EStateM.Result StepError (Session ι ω) α → List (Session ι ω)
  | .ok _ _ => tried
  | .error _ _ => tried.dropLast

def refusedValue {α : Type} : EStateM.Result StepError (Session ι ω) α → List Int64
  | .error (.fault (.invalidInput value _)) _ => [value]
  | _ => []

namespace Session

def reads (s : Session ι ω) : Bool := s.machine.next?.any fun i => i.opcode == .read

def speech (s : Session ι ω) : String :=
  match s.machine.next? with
  | some ⟨.read, _⟩ => "? "
  | some ⟨.write, operand⟩ =>
    match s.machine.memory.read operand.toUInt64 with
    | .ok w => Decimal.Numeral.plain.write w.value ++ "\n"
    | .error _ => ""
  | _ => ""

theorem reads_of_latched {s : Session ι ω} {l : Machine} (latched : s.machine.latch = .ok l) :
    s.reads = (l.current.opcode == .read) := by
  rw [reads, Machine.next?_of_latched latched]
  rfl

/-- The step is a completed `READ`, and has stored this value at its operand. -/
def Stores [Source ι] [Sink ω] (s : Session ι ω) (value : Int64) : Prop :=
  ∃ i after w, step s = .ok i after ∧ i.opcode = .read ∧ w.value = value.toInt ∧
    s.machine.memory.write i.operand.toUInt64 w = .ok after.machine.memory

end Session

/-! ### What is said -/

theorem Machine.reply_of_write [Source ι] {m : Machine} (whole : m.Whole)
    (op : m.current.opcode = .write) (input : ι) :
    ∃ w, m.memory.read m.current.operand.toUInt64 = .ok w ∧
      (m.reply input).said = Decimal.Numeral.plain.write w.value ++ "\n" := by
  obtain ⟨w, found, -⟩ := read_of_lt whole m.operand_lt
  have given : m.operandWord m.current = .ok w := by
    rw [operandWord, effectiveAddress_direct (by rw [op]; rfl)]
    simp only [Except.bind, wordAt, found]
  have planned : m.plan m.current = .ok (.print w) := by
    simp only [plan, op, given, Except.map]
  exact ⟨w, found, by simp only [reply, planned]⟩

theorem Machine.Sound.whole {m : Machine} (sound : m.Sound) : m.Whole :=
  ⟨sound.size, Nat.lt_trans sound.counter (by decide)⟩

theorem Session.written_eq_speech [Source ι] {s : Session ι ω} (sound : s.machine.Sound)
    (silent : s.machine.trace = false) (running : s.machine.state = .running) :
    s.written = s.speech := by
  obtain ⟨l, latched⟩ := sound.latches running
  have next := Machine.next?_of_latched latched
  obtain ⟨-, w, -, rfl⟩ := Machine.latch_eq_ok latched
  have quiet : (s.machine.withInstruction w).heading = "" := by
    simp [Machine.heading, Machine.withInstruction, silent]
  rw [Session.written_of_latched latched, quiet, String.empty_append, speech, next]
  cases current : (s.machine.withInstruction w).current with
  | mk op operand =>
    cases op with
    | read => rw [Machine.reply_of_read (by rw [current])]
    | write =>
      obtain ⟨v, found, said⟩ := Machine.reply_of_write (sound.of_running running w).whole
        (by rw [current]) s.console.input
      rw [current] at found
      change s.machine.memory.read operand.toUInt64 = .ok v at found
      simp only [found, said]
    | _ =>
      obtain ⟨settled, said, -, silent, reply⟩ :=
        Machine.reply_of_other (m := s.machine.withInstruction w) (by simp [current])
      rw [reply]
      exact silent (by simp [current])

/-! ### What is taken -/

section Runs

variable [Sink ω] {holds : ω → String → Prop} {text : String} {s after : Session Script ω}

/-- A completed step takes the value that it stores, or none. -/
theorem step_takes (reliable : Reliable holds) (held : holds s.console.output text)
    {i : Instruction} (done : step s = .ok i after) :
    (s.reads = false ∧ s.console.input.values = after.console.input.values) ∨
      (s.reads = true ∧ ∃ value, s.console.input.values = value :: after.console.input.values ∧
        s.Stores value) := by
  obtain ⟨l, change, latched, rfl, machine, intake⟩ := Session.intake_of_done reliable held done
  rw [Session.reads_of_latched latched]
  generalize outcome : (.ok change : Except Fault Change) = settled at intake
  generalize s.console.input.values = values at intake ⊢
  generalize after.console.input.values = left at intake ⊢
  cases intake with
  | other _ op => exact .inl ⟨by simp [op], rfl⟩
  | exhausted | invalid => cases outcome
  | @word value w left op inside =>
    obtain ⟨room, rfl⟩ := (l.storing_yields l.current _ w).of_ok outcome.symm
    refine .inr ⟨by simp [op], value, rfl, l.current, after, w, done, op, inside, ?_⟩
    obtain ⟨-, v, -, rfl⟩ := Machine.latch_eq_ok latched
    rw [machine, Machine.commit_memory, Memory.write]
    exact if_pos room

theorem Steps.takes (reliable : Reliable holds) (held : holds s.console.output text)
    {passed : List (Session Script ω)} (steps : Steps s passed after) :
    ∃ stored, s.console.input.values = stored ++ after.console.input.values ∧
      List.Forall₂ Session.Stores (passed.filter Session.reads) stored := by
  induction steps generalizing text with
  | none => exact ⟨[], rfl, .nil⟩
  | more done rest ih =>
    have written := Session.step_writes reliable held
    rw [done] at written
    obtain ⟨stored, split, all⟩ := ih written
    rcases step_takes reliable held done with ⟨reads, same⟩ | ⟨reads, value, taken, stores⟩
    · refine ⟨stored, same.trans split, ?_⟩
      rw [List.filter_cons_of_neg (by simp [reads])]
      exact all
    · refine ⟨value :: stored, by rw [taken, split, List.cons_append], ?_⟩
      rw [List.filter_cons_of_pos reads]
      exact .cons stores all

theorem failed_step_takes (reliable : Reliable holds) (held : holds s.console.output text)
    (sound : s.machine.Sound) (running : s.machine.state = .running) {e : StepError}
    {last : Session Script ω} (failed : step s = .error e last) {α : Type} :
    ∃ fault, e = .fault fault ∧ s.console.input.values =
      refusedValue (.error e last : EStateM.Result _ _ α) ++ last.console.input.values := by
  rcases failed_step_cause reliable held sound running failed with
    ⟨fault, rfl, -⟩ | ⟨failure, -, -, misread⟩
  · refine ⟨fault, rfl, ?_⟩
    obtain ⟨l, latched, -, intake⟩ := Session.intake_of_fault reliable held failed
    generalize outcome : (.error fault : Except Fault Change) = settled at intake
    generalize s.console.input.values = values at intake ⊢
    generalize last.console.input.values = left at intake ⊢
    cases intake with
    | other _ op yields => cases yields.of_error outcome.symm <;> rfl
    | exhausted | invalid =>
      cases outcome
      rfl
    | @word value w left op inside =>
      -- The operand is the address of a cell, so that the word is stored.
      obtain ⟨-, v, -, rfl⟩ := Machine.latch_eq_ok latched
      rw [Machine.storing_of_lt (m := s.machine.withInstruction v) sound.size
        (Machine.operand_lt _)] at outcome
      cases outcome
  · obtain ⟨m, ⟨values⟩, output, journal⟩ := s
    cases values <;> cases misread

/-- The accounts of a run that tried these steps. -/
structure Accounts (holds : ω → String → Prop) (text : String) (s : Session Script ω)
    (tried : List (Session Script ω)) (r : EStateM.Result StepError (Session Script ω) UInt64) :
    Prop where
  taken : ∃ stored, s.console.input.values =
      stored ++ refusedValue r ++ (endState r).console.input.values ∧
    List.Forall₂ Session.Stores ((completed tried r).filter Session.reads) stored
  counted : (endState r).machine.cycles.toNat = s.machine.cycles.toNat + (completed tried r).length
  said : holds (endState r).console.output (text ++ String.join (tried.map Session.speech))
  stopped : ∀ e last, r = .error e last → ∃ fault, e = .fault fault

/-- A limited run takes its input, counts its steps and speaks as its accounts say. -/
theorem run_accounts (reliable : Reliable holds) (held : holds s.console.output text)
    (running : s.machine.state = .running) (size : s.machine.memory.cells.size = Memory.capacity)
    (counter : s.machine.registers.counter.toNat < Memory.pageSize)
    (silent : s.machine.trace = false) (n : UInt64) :
    ∃ tried, Course s tried (runLimited n s) ∧ tried.length ≤ n.toNat ∧
      Accounts holds text s tried (runLimited n s) := by
  obtain ⟨tried, course, bound, -⟩ := runLimited_eq_iff.mp (Eq.refl (runLimited n s))
  refine ⟨tried, course, by omega, ?_⟩
  generalize runLimited n s = r at course
  have sound := Machine.Sound.start running size counter
  have speeches : tried.map Session.written = tried.map Session.speech := by
    have kept : ∀ {u after : Session Script ω} {i}, u.machine.Sound ∧ u.machine.trace = false →
        step u = .ok i after → after.machine.Sound ∧ after.machine.trace = false := by
      intro u after i ⟨sound, silent⟩ done
      exact ⟨sound.completed done, (trace_of_done done).trans silent⟩
    apply List.map_congr_left
    intro u mem
    obtain ⟨⟨sound, silent⟩, running⟩ := course.kept kept ⟨sound, silent⟩ u mem
    exact Session.written_eq_speech sound silent running
  have said := course.writes reliable held
  rw [allWritten, speeches] at said
  cases course with
  | completed steps room count =>
    obtain ⟨stored, split, all⟩ := steps.takes reliable held
    refine ⟨⟨stored, ?_, all⟩, (steps.cycles_le room).2, said, ?_⟩
    · simpa [refusedValue, endState] using split
    · rintro e last ⟨⟩
  | @failed passed after last e steps room running failed =>
    obtain ⟨stored, split, all⟩ := steps.takes reliable held
    obtain ⟨fault, rfl, rest⟩ := failed_step_takes (α := UInt64) reliable
      (steps.writes reliable held) (steps.sound sound) running failed
    refine ⟨⟨stored, ?_, ?_⟩, ?_, said, ?_⟩
    · rw [split, rest, List.append_assoc]
      rfl
    · simpa [completed] using all
    · have cycles := (steps.cycles_le room).2
      rw [endState, (step_failed failed).same.cycles, cycles]
      simp [completed]
    · rintro e last ⟨⟩
      exact ⟨fault, rfl⟩

end Runs

def readNext : Word := .ofInt 100001

-- A session whose first `READ` puts another one behind itself, which is given no word.
def selfReading : Session Script Transcript :=
  ⟨⟨.zero, Memory.blank.set 0 readNext, .running, 0, false⟩,
    ⟨⟨[100001, 1000000, 8]⟩, {}, {}⟩⟩

def selfRead : Machine :=
  (selfReading.machine.withInstruction readNext).commit (.store 1 readNext)

theorem run_accounts_selfReading :
    ∃ last, runLimited 5 selfReading = .error (.fault (.invalidInput 1000000 1)) last ∧
      last.console.input.values = [8] ∧ last.machine.cycles = 1 ∧
      last.console.output.text = "? ? " ∧
      ∃ tried, Course selfReading tried (runLimited 5 selfReading) ∧ tried.length ≤ 5 ∧
        Accounts Transcript.Holds "" selfReading tried (runLimited 5 selfReading) := by
  have size : selfReading.machine.memory.cells.size = Memory.capacity := by
    simp [selfReading, Memory.set, Memory.blank]
  have held : Transcript.Holds {} "" := ⟨rfl, rfl⟩
  have room : selfReading.machine.memory.contains 1 = true := by
    rw [Memory.contains, size]
    decide
  have fetched : selfReading.machine.memory.read 0 = .ok readNext :=
    Memory.read_set_self (Memory.contains_blank (by decide)) _
  have stored : (selfReading.machine.withInstruction readNext).storing 1 readNext =
      .ok (.store 1 readNext) := if_pos room
  have reply : (selfReading.machine.withInstruction readNext).reply selfReading.console.input =
      ⟨.ok (.ok (.store 1 readNext)), ⟨[1000000, 8]⟩, "? "⟩ := by
    rw [Machine.reply_of_read (by rfl), ← stored]
    rfl
  obtain ⟨c, input, heard, done⟩ := Session.step_of_latched Transcript.reliable (s := selfReading)
    held (Machine.latch_of_read rfl fetched)
  rw [reply] at input heard done
  have done : step selfReading = .ok ⟨.read, 1⟩ ⟨selfRead, c⟩ := done
  have fetched' : selfRead.memory.read 1 = .ok readNext := Memory.read_set_self room _
  have reply' : (selfRead.withInstruction readNext).reply c.input =
      ⟨.ok (.error (.invalidInput 1000000 1)), ⟨[8]⟩, "? "⟩ := by
    rw [Machine.reply_of_read (by rfl), input]
    rfl
  obtain ⟨c', input', heard', failed⟩ := Session.step_of_latched Transcript.reliable
    (s := ⟨selfRead, c⟩) heard (Machine.latch_of_read rfl fetched')
  rw [reply'] at input' heard' failed
  have ran := runLimited_error_iff.mpr ⟨[selfReading], ⟨selfRead, c⟩, .more done (.none _),
    (by decide : 1 < min (5 : UInt64).toNat selfReading.machine.countLeft), rfl, failed⟩
  exact ⟨_, ran, by rw [input'], rfl, heard'.2,
    run_accounts Transcript.reliable held rfl size (by decide) rfl 5⟩

end DecimalMachine
