import DecimalMachine.Proofs.Intake
import DecimalMachine.Proofs.Resumption

/-!
Input that is supplied in pieces.

A run that its input has interrupted stands at a `READ` that has stored nothing. Its completed steps
come about in the same way whatever is put behind the values that they took, and the `READ` is taken
again as if it had not been tried. So the run goes on with more values as if they had been there
from the start, and behind a value that is no word as if that value had not been there.
-/

namespace DecimalMachine

variable {ω ψ : Type} [Sink ω] [Sink ψ] {holds : ω → String → Prop} {holds' : ψ → String → Prop}
  {text : String}

/-- A session of this machine at these values, and at an output that has taken everything. -/
structure Session.At (holds : ω → String → Prop) (m : Machine) (values : List Int64)
    (s : Session Script ω) : Prop where
  machine : s.machine = m
  values : s.console.input.values = values
  held : ∃ text, holds s.console.output text

/-- The two machines, each set going at its own values, come to the same end: the same machine with
the same values left, or none at all. -/
def EndAlike (holds : ψ → String → Prop) (m : Machine) (values : List Int64) (n : Machine)
    (others : List Int64) : Prop :=
  ∀ t u : Session Script ψ, t.At holds m values → u.At holds n others →
    Option.Rel (Alike Session.Agrees) ((run t).map uncounted) ((run u).map uncounted)

theorem step_at (reliable : Reliable holds) (reliable' : Reliable holds') {m : Machine}
    {values : List Int64} {s after : Session Script ω} {i : Instruction}
    (stands : s.At holds m values) (done : step s = .ok i after) :
    ∃ used left, values = used ++ left ∧ after.At holds after.machine left ∧
      ∀ rest {t : Session Script ψ}, t.At holds' m (used ++ rest) →
        ∃ after', step t = .ok i after' ∧ after'.At holds' after.machine rest := by
  obtain ⟨rfl, rfl, text, held⟩ := stands
  obtain ⟨l, change, latched, came, rfl, machine, input, heard⟩ :=
    Session.settled_of_done reliable held done
  obtain ⟨used, split, again⟩ := Machine.reply_of_done came
  refine ⟨used, _, split, ⟨rfl, by rw [input], heard⟩, ?_⟩
  rintro rest ⟨m, ⟨values⟩, output, journal⟩ ⟨rfl, rfl, text', held'⟩
  obtain ⟨c, input', heard', stepped⟩ := Session.step_of_latched reliable' held' latched
  simp only [again rest, came] at input' heard' stepped
  exact ⟨_, stepped, machine.symm, by rw [input'], _, heard'⟩

theorem steps_at (reliable : Reliable holds) (reliable' : Reliable holds') {m : Machine}
    {values : List Int64} {s after : Session Script ω} {passed : List (Session Script ω)}
    (stands : s.At holds m values) (steps : Steps s passed after) :
    ∃ used left, values = used ++ left ∧ after.At holds after.machine left ∧
      ∀ rest {t : Session Script ψ}, t.At holds' m (used ++ rest) →
        ∃ passed' after', Steps t passed' after' ∧ passed'.length = passed.length ∧
          after'.At holds' after.machine rest := by
  induction steps generalizing m values with
  | none s =>
    refine ⟨[], values, rfl, ⟨rfl, stands.values, stands.held⟩, ?_⟩
    intro rest t again
    exact ⟨[], t, .none t, rfl, again.machine.trans stands.machine.symm, again.values, again.held⟩
  | more done rest ih =>
    obtain ⟨used, left, rfl, stands', again⟩ := step_at reliable reliable' stands done
    obtain ⟨used', left', rfl, stands'', again'⟩ := ih stands'
    refine ⟨used ++ used', left', by simp, stands'', ?_⟩
    intro more t start
    obtain ⟨middle, done', start'⟩ := again (used' ++ more) (by simpa using start)
    obtain ⟨passed', after', steps', length, final⟩ := again' more start'
    exact ⟨_, after', .more done' steps', by simp [length], final⟩

def Machine.resumed (m : Machine) : Machine := { m with state := .running }

theorem run_taken_up (reliable : Reliable holds) (reliable' : Reliable holds')
    {s after : Session Script ω} {passed : List (Session Script ω)} {l : Machine}
    (held : holds s.console.output text) (steps : Steps s passed after)
    (room : passed.length ≤ s.machine.countLeft) (latched : after.machine.latch = .ok l) :
    ∃ used, s.console.input.values = used ++ after.console.input.values ∧
      ∀ rest, EndAlike holds' s.machine (used ++ rest) l rest := by
  obtain ⟨used, left, split, stands, again⟩ :=
    steps_at reliable reliable' (s := s) ⟨rfl, rfl, text, held⟩ steps
  refine ⟨used, by rw [stands.values, split], ?_⟩
  intro rest t u start resumed
  obtain ⟨passed', after', steps', length, stands'⟩ := again rest start
  rw [run_after_steps steps' (by rw [length, start.machine]; exact room)]
  obtain ⟨text₁, held₁⟩ := stands'.held
  obtain ⟨text₂, held₂⟩ := resumed.held
  have input : after'.console.input = u.console.input :=
    congrArg Script.mk (stands'.values.trans resumed.values.symm)
  have cycles : after'.machine.cycles = u.machine.cycles := by
    obtain ⟨-, w, -, rfl⟩ := Machine.latch_eq_ok latched
    rw [stands'.machine, resumed.machine]
    rfl
  have latched' : u.machine.latch = .ok l := by
    rw [resumed.machine]
    exact Machine.latch_latched latched
  exact Alike.mono_rel (run_relatched reliable' (stands'.machine ▸ latched) latched' input held₁
    held₂ cycles) Session.agrees_of_beside

/-- Input may be supplied in pieces. A run that its values did not suffice for has used all of them,
and goes on with more as a run from the start does that was given all values at once. A run that was
stopped by a value that is no word has used the values up to this one, and goes on with the rest as
a run from the start does that was not given this value. -/
theorem input_in_pieces (reliable : Reliable holds) (reliable' : Reliable holds')
    {s last : Session Script ω} {fault : Fault} (held : holds s.console.output text)
    (ran : run s = some (.error (.fault fault) last)) :
    (∀ location, fault = .inputExhausted location → last.console.input.values = [] ∧
      ∀ more, EndAlike holds' s.machine (s.console.input.values ++ more)
        last.machine.resumed more) ∧
    ∀ value location, fault = .invalidInput value location →
      ∃ used, s.console.input.values = used ++ value :: last.console.input.values ∧
        EndAlike holds' s.machine (used ++ last.console.input.values) last.machine.resumed
          last.console.input.values := by
  obtain ⟨passed, after, steps, room, running, failed⟩ := run_error_iff.mp ran
  obtain ⟨text', held'⟩ : ∃ text', holds after.console.output text' :=
    ⟨_, steps.writes reliable held⟩
  obtain ⟨l, latched, stopped, intake⟩ := Session.intake_of_fault reliable held' failed
  have set_back : last.machine.resumed = l := by
    obtain ⟨-, w, -, rfl⟩ := Machine.latch_eq_ok latched
    rw [stopped, Machine.resumed, Machine.withInstruction, ← running]
  obtain ⟨used, split, again⟩ := run_taken_up reliable reliable' held steps room latched
  rw [set_back]
  constructor
  · rintro location rfl
    obtain ⟨none, unread⟩ := intake.of_exhausted
    rw [none, List.append_nil] at split
    rw [split]
    exact ⟨unread, again⟩
  · rintro value location rfl
    exact ⟨used, by rw [split, intake.of_invalid], again _⟩

-- A program that reads two values.
def readTwice (values : List Int64) : Session Script Transcript :=
  programmed [100003, 100004, 450000, 0, 0] values

def interrupted (values : List Int64) : Session Script Transcript :=
  endState (step (endState (step (readTwice values))))

def takenUp (values more : List Int64) : Session Script Transcript :=
  ⟨(interrupted values).machine.resumed, ⟨⟨more⟩, {}, {}⟩⟩

theorem input_in_pieces_readTwice :
    run (readTwice [7]) = some (.error (.fault (.inputExhausted 1)) (interrupted [7])) ∧
    run (readTwice [7, 1000000, 8]) =
      some (.error (.fault (.invalidInput 1000000 1)) (interrupted [7, 1000000, 8])) ∧
    Option.Rel (Alike Session.Agrees) ((run (readTwice [7, 8])).map uncounted)
      ((run (takenUp [7] [8])).map uncounted) ∧
    Option.Rel (Alike Session.Agrees) ((run (readTwice [7, 8])).map uncounted)
      ((run (takenUp [7, 1000000, 8] [8])).map uncounted) ∧
    ∃ after, run (takenUp [7] [8]) = some (.ok 2 after) ∧ after.machine.state = .halted 0 0 := by
  have held : Transcript.Holds {} "" := ⟨rfl, rfl⟩
  have first (values : List Int64) : step (readTwice (7 :: values)) =
      .ok ⟨.read, 3⟩ (endState (step (readTwice (7 :: values)))) := by rfl
  have short : run (readTwice [7]) =
      some (.error (.fault (.inputExhausted 1)) (interrupted [7])) :=
    run_error_iff.mpr ⟨_, _, .more (first []) (.none _), by decide, rfl, by rfl⟩
  have wrong : run (readTwice [7, 1000000, 8]) =
      some (.error (.fault (.invalidInput 1000000 1)) (interrupted [7, 1000000, 8])) :=
    run_error_iff.mpr ⟨_, _, .more (first [1000000, 8]) (.none _), by decide, rfl, by rfl⟩
  have enough := (input_in_pieces Transcript.reliable Transcript.reliable (s := readTwice [7])
    held short).1 1 rfl
  obtain ⟨used, split, better⟩ := (input_in_pieces Transcript.reliable Transcript.reliable
    (s := readTwice [7, 1000000, 8]) held wrong).2 1000000 1 rfl
  have unread : (interrupted [7, 1000000, 8]).console.input.values = [8] := by rfl
  rw [unread] at split better
  have split : [7] ++ [1000000, 8] = used ++ [1000000, 8] := split
  obtain rfl := List.append_cancel_right split
  have taken_up (values more : List Int64) : (takenUp values more).At Transcript.Holds
      (interrupted values).machine.resumed more := ⟨rfl, rfl, "", held⟩
  have whole : (readTwice [7, 8]).At Transcript.Holds (readTwice [7]).machine [7, 8] :=
    ⟨rfl, rfl, "", held⟩
  exact ⟨short, wrong, enough.2 [8] _ _ whole (taken_up _ _), better _ _ whole (taken_up _ _),
    _, by rfl, by rfl⟩

end DecimalMachine
