import DecimalMachine.Proofs.Recital

/-!
The text of a report on a transcript that may refuse something.

A write that is refused ends the run with a failure of the console. A run that ends in any other way
has therefore written all that it had to say, behind what was written before: the text is the one
that `execute_transcript` gives for an output that never fails.
-/

namespace DecimalMachine

variable {ι : Type}

theorem Transcript.text_of_recite {ms : List (Moment ι)} {t t' : Transcript}
    (taken : recite ms t = .ok () t') : t'.text = t.text ++ told ms := by
  induction ms generalizing t with
  | nil =>
    cases taken
    simp [told]
  | cons m rest ih =>
    obtain ⟨input, said⟩ := m
    cases said with
    | flush => simpa [told, Utterance.written] using ih taken
    | write text =>
      cases closed : t.isClosed with
      | true => simp only [recite, Utterance.say, write_closed closed, reduceCtorEq] at taken
      | false =>
        simp only [recite, Utterance.say, write_open closed] at taken
        simpa [told, Utterance.written, Transcript.append, String.append_assoc] using ih taken

theorem Tells.text_of_ok {ε α : Type} {raise : IoError → ε} {act : Dialogue ι Transcript ε α}
    {ms : List (Moment ι)} {settled : Except ε α} {input' : ι} {a : α} {c c' : Console ι Transcript}
    (tells : Tells raise act c.input ms settled input') (done : act c = .ok a c') :
    c'.output.text = c.output.text ++ told ms := by
  obtain ⟨journal, same⟩ := tells.at_output c.output c.journal
  replace same := done.symm.trans same
  unfold outcomeAt at same
  split at same
  · rename_i taken
    cases settled with
    | ok a =>
      cases same
      exact Transcript.text_of_recite taken
    | error e => cases same
  · cases same

/-! ### Steps -/

variable [Source ι]

/-- The result is not a failure of the console. -/
def NotBroken {α : Type} (r : EStateM.Result StepError (Session ι Transcript) α) : Prop :=
  ∀ e last, r ≠ .error (.io e) last

theorem Session.written_eq_told {ω : Type} {s : Session ι ω} {l : Machine}
    (latched : s.machine.latch = .ok l) : s.written = told (l.moments s.console.input) := by
  have empty : Transcript.Holds s.alone.console.output "" := ⟨rfl, rfl⟩
  obtain ⟨journal, stepped⟩ := step_at_output (s := s.alone) latched
  obtain ⟨output, taken, held⟩ :=
    Transcript.reliable.recite (l.moments s.alone.console.input) empty
  rw [taken] at stepped
  rw [written, stepped, Machine.endState_ended, held.2, String.empty_append]
  rfl

variable {s after : Session ι Transcript} {tried : List (Session ι Transcript)}

theorem step_text (whole : NotBroken (step s)) :
    (endState (step s)).console.output.text = s.console.output.text ++ s.written := by
  cases latched : s.machine.latch with
  | error e =>
    rw [Session.written_of_unlatched latched, Session.step_of_unlatched latched]
    simp [endState]
  | ok l =>
    obtain ⟨journal, stepped⟩ := step_at_output latched
    split at stepped
    · rename_i taken
      rw [stepped, Machine.endState_ended, Session.written_eq_told latched]
      exact Transcript.text_of_recite taken
    · exact absurd stepped (whole _ _)

theorem Steps.text (steps : Steps s tried after) :
    after.console.output.text = s.console.output.text ++ allWritten tried := by
  induction steps with
  | none => simp [allWritten]
  | @more s middle _ _ i done rest ih =>
    have first := step_text (s := s) fun e last failed => by cases done.symm.trans failed
    rw [done] at first
    change middle.console.output.text = _ at first
    rw [ih, first]
    simp [allWritten, String.append_assoc]

theorem Course.text {r : EStateM.Result StepError (Session ι Transcript) UInt64}
    (course : Course s tried r) (whole : NotBroken r) :
    (endState r).console.output.text = s.console.output.text ++ allWritten tried := by
  cases course with
  | completed steps => exact steps.text
  | @failed passed stuck last e steps room running failed =>
    have final := step_text (s := stuck) fun f last' broken => by
      cases failed.symm.trans broken
      exact whole f last rfl
    rw [failed, steps.text] at final
    simpa [allWritten, endState, String.append_assoc] using final

/-! ### The report -/

omit [Source ι] in
theorem onConsole_text {α : Type} {act : Dialogue ι Transcript IoError α} {ms : List (Moment ι)}
    {settled : Except IoError α} {input' : ι} {a : α}
    (tells : Tells id act s.console.input ms settled input')
    (done : Session.onConsole act s = .ok a after) :
    after.console.output.text = s.console.output.text ++ told ms :=
  tells.text_of_ok (onConsole_ok done).2

omit [Source ι] in
theorem openReport_text {config : Config} (opening : openReport config s = .ok () after) :
    after.console.output.text =
      s.console.output.text ++ "*** Program execution begins ***\n" := by
  rw [openReport_eq] at opening
  rw [onConsole_text (.write _ _) opening]
  simp [told, Utterance.written, Session.configured]

omit [Source ι] in
theorem closeReport_text {outcome reported : Outcome}
    (closed : closeReport outcome s = .ok reported after) :
    after.console.output.text = s.console.output.text ++ outcome.closing s.machine := by
  rw [onConsole_text (closing_tells outcome s.machine s.console.input) closed]
  simp [told, Outcome.moments, Outcome.closing, Machine.dumpText, Utterance.written,
    Function.comp_def]

omit [Source ι] in
theorem reportResult_text {r : EStateM.Result StepError (Session ι Transcript) UInt64}
    {outcome : Outcome} (reported : reportResult r = .ok outcome after) :
    after.console.output.text =
      (endState r).console.output.text ++ outcome.closing (endState r).machine := by
  unfold reportResult at reported
  split at reported
  · obtain ⟨rfl, -⟩ := closeReport_ok reported
    exact closeReport_text reported
  · obtain ⟨rfl, -⟩ := closeReport_ok reported
    exact closeReport_text reported
  · cases reported

/-- The report of a run from `s` stands whole on the output, behind what was there: the banner, what
the tried steps wrote, and the last lines. -/
def WholeReport (config : Config) (s after : Session ι Transcript) (outcome : Outcome) : Prop :=
  ∃ opened tried ended, openReport config s = .ok () opened ∧
    runConfigured config opened = some ended ∧ Course opened tried ended ∧
    after.console.output.text = s.console.output.text ++ "*** Program execution begins ***\n" ++
      allWritten tried ++ outcome.closing after.machine

theorem execute_whole {config : Config} {outcome : Outcome}
    (returned : execute config s = some (.ok outcome after)) :
    WholeReport config s after outcome := by
  obtain ⟨opened, r, opening, ran, reported⟩ := execute_ok returned
  obtain ⟨tried, course⟩ := runConfigured_course ran
  obtain ⟨reported_as, machine⟩ := reportResult_ok reported
  -- A failure of the console has no outcome, so that nothing was refused during the run.
  have whole : NotBroken r := by
    rintro e last rfl
    cases reported_as
  refine ⟨opened, tried, r, opening, ran, course, ?_⟩
  rw [reportResult_text reported, course.text whole, openReport_text opening, machine]

end DecimalMachine
