import DecimalMachine.Proofs.Footprint
import DecimalMachine.Proofs.Steps

/-!
What a run takes from a list of values.

Only `READ` takes a value, and it takes one at a time. `Intake` says for one instruction what it
makes of the values and which of them it leaves. A completed instruction comes to the same whatever
stands behind the values that it took, and so does a row of completed steps.
-/

namespace DecimalMachine

namespace Machine

variable {m : Machine}

theorem reply_of_read {ι : Type} [Source ι] (op : m.current.opcode = .read) (input : ι) :
    m.reply input = ⟨(Source.read input).1.outcome.map (m.receive m.current.operand.toUInt64),
      (Source.read input).2, "? "⟩ := by
  simp only [reply, plan, op]

theorem reply_of_other (op : m.current.opcode ≠ .read) :
    ∃ settled said, Yields (m.PlanFault m.current) (fun _ => True) settled ∧
      (m.current.opcode ≠ .write → said = "") ∧
      ∀ {ι : Type} [Source ι] (input : ι), m.reply input = ⟨.ok settled, input, said⟩ := by
  have yields := m.plan_yields m.current
  cases planned : m.plan m.current with
  | error fault =>
    refine ⟨.error fault, "", yields.of_error planned, fun _ => rfl, ?_⟩
    intro ι _ input
    simp only [reply, planned]
  | ok action =>
    have actionOf := yields.of_ok planned
    cases action with
    | change change =>
      refine ⟨.ok change, "", trivial, fun _ => rfl, ?_⟩
      intro ι _ input
      simp only [reply, planned]
    | print w =>
      refine ⟨.ok .nothing, Decimal.Numeral.plain.write w.value ++ "\n", trivial, ?_, ?_⟩
      · intro other
        cases actionOf with
        | print _ write => exact absurd write other
      · intro ι _ input
        simp only [reply, planned]
    | ask address =>
      cases actionOf with
      | ask read => exact absurd read op

/-- What an instruction comes to at these values, and which of them it leaves. -/
inductive Intake (m : Machine) : List Int64 → Except Fault Change → List Int64 → Prop where
  | other {settled : Except Fault Change} (values : List Int64) (op : m.current.opcode ≠ .read)
      (yields : Yields (m.PlanFault m.current) (fun _ => True) settled) :
      Intake m values settled values
  | exhausted (op : m.current.opcode = .read) : Intake m [] (.error (.inputExhausted m.location)) []
  | invalid {value : Int64} (left : List Int64) (op : m.current.opcode = .read)
      (outside : Word.ofInt? value.toInt = none) :
      Intake m (value :: left) (.error (.invalidInput value m.location)) left
  | word {value : Int64} {w : Word} (left : List Int64) (op : m.current.opcode = .read)
      (inside : w.value = value.toInt) :
      Intake m (value :: left) (m.storing m.current.operand.toUInt64 w) left

theorem reply_intake (m : Machine) (values : List Int64) :
    ∃ settled left, (m.reply (Script.mk values)).settled = .ok settled ∧
      (m.reply (Script.mk values)).input = ⟨left⟩ ∧ m.Intake values settled left := by
  by_cases op : m.current.opcode = .read
  · rw [reply_of_read op]
    cases values with
    | nil => exact ⟨_, _, rfl, rfl, .exhausted op⟩
    | cons value left =>
      refine ⟨_, _, rfl, rfl, ?_⟩
      cases made : Word.ofInt? value.toInt with
      | none =>
        simp only [receive, Word.ofInt64, made]
        exact .invalid left op made
      | some w =>
        simp only [receive, Word.ofInt64, made]
        exact .word left op (Word.value_of_ofInt? made)
  · obtain ⟨settled, said, yields, -, reply⟩ := reply_of_other op
    rw [reply]
    exact ⟨settled, values, rfl, rfl, .other values op yields⟩

theorem reply_of_done {values : List Int64} {change : Change}
    (came : (m.reply (Script.mk values)).settled = .ok (.ok change)) :
    ∃ used, values = used ++ (m.reply (Script.mk values)).input.values ∧ ∀ rest,
      m.reply (Script.mk (used ++ rest)) = { m.reply (Script.mk values) with input := ⟨rest⟩ } := by
  by_cases op : m.current.opcode = .read
  · cases values with
    | nil =>
      rw [reply_of_read op] at came
      cases came
    | cons value left =>
      refine ⟨[value], by rw [reply_of_read op]; rfl, ?_⟩
      intro rest
      rw [reply_of_read op, reply_of_read op]
      rfl
  · obtain ⟨settled, said, -, -, reply⟩ := reply_of_other op
    refine ⟨[], by rw [reply]; rfl, ?_⟩
    intro rest
    rw [reply, reply]
    rfl

theorem Intake.of_exhausted {values left : List Int64} {location : UInt64}
    (intake : m.Intake values (.error (.inputExhausted location)) left) :
    values = [] ∧ left = [] := by
  generalize came : (.error (.inputExhausted location) : Except Fault Change) = settled at intake
  cases intake with
  | other _ op yields =>
    subst came
    cases yields
  | exhausted op => exact ⟨rfl, rfl⟩
  | invalid left op outside => cases came
  | word left op inside => cases (m.storing_yields m.current _ _).of_error came.symm

theorem Intake.of_invalid {values left : List Int64} {value : Int64} {location : UInt64}
    (intake : m.Intake values (.error (.invalidInput value location)) left) :
    values = value :: left := by
  generalize came : (.error (.invalidInput value location) : Except Fault Change) =
    settled at intake
  cases intake with
  | other _ op yields =>
    subst came
    cases yields
  | exhausted op => cases came
  | invalid left op outside =>
    cases came
    rfl
  | word left op inside => cases (m.storing_yields m.current _ _).of_error came.symm

end Machine

/-! ### Steps -/

section Sessions

variable {ι ω : Type} [Source ι] [Sink ω] {holds : ω → String → Prop} {text : String}
  (reliable : Reliable holds) {s : Session ι ω} (held : holds s.console.output text)

include reliable held

theorem Session.settled_of_done {after : Session ι ω} {i : Instruction}
    (done : step s = .ok i after) :
    ∃ l change, s.machine.latch = .ok l ∧ (l.reply s.console.input).settled = .ok (.ok change) ∧
      i = l.current ∧ after.machine = l.commit change ∧
      after.console.input = (l.reply s.console.input).input ∧
      ∃ text', holds after.console.output text' := by
  cases latched : s.machine.latch with
  | error e => cases (Session.step_of_unlatched latched).symm.trans done
  | ok l =>
    obtain ⟨c, input, heard, stepped⟩ := Session.step_of_latched reliable held latched
    rw [done] at stepped
    cases came : (l.reply s.console.input).settled with
    | error e =>
      rw [came] at stepped
      cases stepped
    | ok settled =>
      rw [came] at stepped
      cases settled with
      | error fault => cases stepped
      | ok change =>
        cases stepped
        exact ⟨l, change, rfl, came, rfl, rfl, input, _, heard⟩

theorem Session.settled_of_fault {last : Session ι ω} {fault : Fault}
    (failed : step s = .error (.fault fault) last) :
    ∃ l, s.machine.latch = .ok l ∧ (l.reply s.console.input).settled = .ok (.error fault) ∧
      last.machine = { l with state := .faulted fault } ∧
      last.console.input = (l.reply s.console.input).input := by
  cases latched : s.machine.latch with
  | error e =>
    cases (Session.step_of_unlatched latched).symm.trans failed
    rcases Machine.latch_eq_error latched with same | ⟨e', same⟩ <;> cases same
  | ok l =>
    obtain ⟨c, input, heard, stepped⟩ := Session.step_of_latched reliable held latched
    rw [failed] at stepped
    cases came : (l.reply s.console.input).settled with
    | error e =>
      rw [came] at stepped
      cases stepped
    | ok settled =>
      rw [came] at stepped
      cases settled with
      | error fault =>
        cases stepped
        exact ⟨l, rfl, came, rfl, input⟩
      | ok change => cases stepped

end Sessions

namespace Session

variable {ω : Type} [Sink ω] {holds : ω → String → Prop} {text : String}
  {s : Session Script ω}

theorem intake_of_done (reliable : Reliable holds) (held : holds s.console.output text)
    {after : Session Script ω} {i : Instruction} (done : step s = .ok i after) :
    ∃ l change, s.machine.latch = .ok l ∧ i = l.current ∧ after.machine = l.commit change ∧
      l.Intake s.console.input.values (.ok change) after.console.input.values := by
  obtain ⟨l, change, latched, came, current, machine, unread, -⟩ :=
    settled_of_done reliable held done
  obtain ⟨settled, left, came', input, intake⟩ := l.reply_intake s.console.input.values
  cases came.symm.trans came'
  rw [unread, input]
  exact ⟨l, change, latched, current, machine, intake⟩

theorem intake_of_fault (reliable : Reliable holds) (held : holds s.console.output text)
    {last : Session Script ω} {fault : Fault} (failed : step s = .error (.fault fault) last) :
    ∃ l, s.machine.latch = .ok l ∧ last.machine = { l with state := .faulted fault } ∧
      l.Intake s.console.input.values (.error fault) last.console.input.values := by
  obtain ⟨l, latched, came, machine, unread⟩ := settled_of_fault reliable held failed
  obtain ⟨settled, left, came', input, intake⟩ := l.reply_intake s.console.input.values
  cases came.symm.trans came'
  rw [unread, input]
  exact ⟨l, latched, machine, intake⟩

end Session

end DecimalMachine
