import DecimalMachine.Proofs.Steps
import DecimalMachine.Report

/-!
The outcome that a report gives, and the machine that the run left.

They agree if the machine had not faulted before. A machine that had is not run any further, and is
reported as one that met a limit.
-/

namespace DecimalMachine

variable {ι ω α : Type}

theorem onConsole_ok {act : Dialogue ι ω IoError α} {s after : Session ι ω} {a : α}
    (done : Session.onConsole act s = .ok a after) :
    after.machine = s.machine ∧ act s.console = .ok a after.console := by
  obtain ⟨m, c⟩ := s
  simp only [Session.onConsole] at done
  split at done
  · rename_i acted
    cases done
    exact ⟨rfl, acted⟩
  · cases done

theorem onConsole_comes {holds : ω → String → Prop} {act : Dialogue ι ω IoError α}
    {s : Session ι ω} {a : α} {text said : String} (held : holds s.console.output text)
    (comes : Comes holds act s.console.input (.ok a) s.console.input said) :
    ∃ after, Session.onConsole act s = .ok a after ∧ after.machine = s.machine ∧
      after.console.input = s.console.input ∧ holds after.console.output (text ++ said) := by
  obtain ⟨m, input, output, journal⟩ := s
  obtain ⟨output', journal', acted, held'⟩ := comes output journal text held
  refine ⟨⟨m, ⟨input, output', journal'⟩⟩, ?_, rfl, rfl, held'⟩
  simp only [Session.onConsole, acted, resultOf]

variable [Sink ω] {holds : ω → String → Prop} {s after : Session ι ω} {text : String}

/-! ### Opening and closing -/

/-- The session that a report runs, before its banner. -/
def Session.configured (s : Session ι ω) (config : Config) : Session ι ω :=
  ⟨{ s.machine with trace := config.trace }, s.console⟩

theorem openReport_eq (config : Config) (s : Session ι ω) : openReport config s =
    Session.onConsole (Console.writeLine "*** Program execution begins ***")
      (s.configured config) := rfl

theorem openReport_ok {config : Config} (opened : openReport config s = .ok () after) :
    after.machine = (s.configured config).machine := by
  rw [openReport_eq] at opened
  exact (onConsole_ok opened).1

theorem openReport_comes (reliable : Reliable holds) (held : holds s.console.output text)
    (config : Config) :
    ∃ opened, openReport config s = .ok () opened ∧
      opened.machine = (s.configured config).machine ∧ opened.console.input = s.console.input ∧
      holds opened.console.output (text ++ "*** Program execution begins ***\n") := by
  rw [openReport_eq]
  exact onConsole_comes held (Comes.write reliable _)

theorem closeReport_ok {outcome told : Outcome} (closed : closeReport outcome s = .ok told after) :
    told = outcome ∧ after.machine = s.machine := by
  obtain ⟨same, reported⟩ := onConsole_ok closed
  obtain ⟨_, _, _, reported⟩ := bind_eq_ok reported
  obtain ⟨_, _, _, reported⟩ := bind_eq_ok reported
  cases reported
  exact ⟨rfl, same⟩

def Machine.dumpText (m : Machine) (first last : UInt64) : String :=
  String.join ((m.dumpLines first last).map (· ++ "\n"))

def Outcome.closing (outcome : Outcome) (m : Machine) : String :=
  String.join (outcome.lines.map (· ++ "\n")) ++ m.dumpText outcome.pages.1 outcome.pages.2

theorem closeReport_comes (reliable : Reliable holds) (held : holds s.console.output text)
    (outcome : Outcome) :
    ∃ after, closeReport outcome s = .ok outcome after ∧ after.machine = s.machine ∧
      after.console.input = s.console.input ∧
      holds after.console.output (text ++ outcome.closing s.machine) := by
  have rest : Comes holds (do Console.flush; return outcome) s.console.input (.ok outcome)
      s.console.input "" := (Comes.flush reliable).bind (Comes.pure outcome)
  apply onConsole_comes held
  exact (Comes.writeLines reliable _).bind rest (by simp [Outcome.closing, Machine.dumpText])

/-! ### The outcome -/

variable [Source ι] {r : EStateM.Result StepError (Session ι ω) UInt64} {config : Config}
  {outcome : Outcome}

theorem runConfigured_course (ran : runConfigured config s = some r) :
    ∃ tried, Course s tried r := by
  unfold runConfigured at ran
  split at ran
  · obtain ⟨tried, course, -⟩ := runLimited_eq_iff.mp (Option.some.inj ran)
    exact ⟨tried, course⟩
  · obtain ⟨tried, course, -⟩ := run_eq_iff.mp ran
    exact ⟨tried, course⟩

theorem limit_of_running {k : UInt64}
    (ran : runConfigured config s = some (.ok k after)) (running : after.machine.state = .running) :
    ∃ limit, config.maxCycles = some limit := by
  unfold runConfigured at ran
  split at ran
  · exact ⟨_, ‹_›⟩
  · obtain ⟨_, _, _, stopped, _⟩ := run_ok_iff.mp ran
    exact absurd running stopped

/-- The outcome that a result is reported as. A failed console leaves none. -/
def reportedAs : EStateM.Result StepError (Session ι ω) UInt64 → Option Outcome
  | .ok k last => some (.ofState k last.machine.state)
  | .error (.fault fault) _ => some (.faulted fault)
  | .error _ _ => none

omit [Source ι] in
theorem reportResult_ok (reported : reportResult r = .ok outcome after) :
    reportedAs r = some outcome ∧ after.machine = (endState r).machine := by
  unfold reportResult at reported
  split at reported
  · obtain ⟨rfl, same⟩ := closeReport_ok reported
    exact ⟨rfl, same⟩
  · obtain ⟨rfl, same⟩ := closeReport_ok reported
    exact ⟨rfl, same⟩
  · cases reported

omit [Source ι] in
theorem reportResult_comes (reliable : Reliable holds)
    (held : holds (endState r).console.output text) (reported : reportedAs r = some outcome) :
    ∃ after, reportResult r = .ok outcome after ∧ after.machine = (endState r).machine ∧
      after.console.input = (endState r).console.input ∧
      holds after.console.output (text ++ outcome.closing (endState r).machine) := by
  cases r with
  | ok k last =>
    cases reported
    exact closeReport_comes reliable held _
  | error e last =>
    cases e with
    | fault fault =>
      cases reported
      exact closeReport_comes reliable held _
    | _ => cases reported

theorem execute_of_opened {opened : Session ι ω} (opening : openReport config s = .ok () opened) :
    execute config s = (runConfigured config opened).map reportResult := by
  simp only [execute, opening]

theorem execute_ok (returned : execute config s = some (.ok outcome after)) :
    ∃ opened r, openReport config s = .ok () opened ∧ runConfigured config opened = some r ∧
      reportResult r = .ok outcome after := by
  cases opening : openReport config s with
  | ok _ opened =>
    rw [execute_of_opened opening] at returned
    obtain ⟨r, ran, reported⟩ := Option.map_eq_some_iff.mp returned
    exact ⟨opened, r, rfl, ran, reported⟩
  | error e opened => simp [execute, opening] at returned

/-- The outcome says what became of the machine in the run from `opened`. -/
structure Outcome.Tells (outcome : Outcome) (config : Config) (opened : Session ι ω)
    (final : Machine) : Prop where
  faulted : ∀ fault, outcome = .faulted fault ↔ final.state = .faulted fault
  halted : ∀ first last, outcome = .halted first last ↔ final.state = .halted first last
  limited : ∀ n, outcome = .cycleLimit n → final.state = .running ∧
    (∃ limit, config.maxCycles = some limit) ∧
    ∃ passed last, Steps opened passed last ∧ last.machine = final ∧ passed.length = n.toNat
  status : outcome.exitCode = 3 →
    (∃ limit, config.maxCycles = some limit) ∧ ∀ fault, final.state ≠ .faulted fault

theorem Outcome.tells_of_fault {config : Config} {opened last : Session ι ω} {fault : Fault}
    (faulted : last.machine.state = .faulted fault) :
    (Outcome.faulted fault).Tells config opened last.machine := by
  refine ⟨?_, ?_, nofun, nofun⟩
  · intro other
    rw [faulted, Outcome.faulted.injEq, State.faulted.injEq]
  · intro first final
    simp only [faulted, reduceCtorEq]

theorem Outcome.tells_of_state {config : Config} {opened last : Session ι ω} {k : UInt64}
    {passed : List (Session ι ω)} (steps : Steps opened passed last)
    (count : k.toNat = passed.length)
    (limit : last.machine.state = .running → ∃ limit, config.maxCycles = some limit)
    (fine : ∀ fault, last.machine.state ≠ .faulted fault) :
    (Outcome.ofState k last.machine.state).Tells config opened last.machine := by
  cases state : last.machine.state with
  | running =>
    refine ⟨?_, ?_, ?_, fun _ => ⟨limit state, fine⟩⟩
    · intro fault
      simp only [Outcome.ofState, state, reduceCtorEq]
    · intro first final
      simp only [Outcome.ofState, state, reduceCtorEq]
    · rintro n ⟨⟩
      exact ⟨state, limit state, passed, last, steps, rfl, count.symm⟩
  | halted first final =>
    refine ⟨?_, ?_, nofun, nofun⟩
    · intro fault
      simp only [Outcome.ofState, state, reduceCtorEq]
    · intro first' final'
      rw [Outcome.ofState, state, Outcome.halted.injEq, State.halted.injEq]
  | faulted fault => exact absurd state (fine fault)

theorem execute_tells (returned : execute config s = some (.ok outcome after))
    (fine : ∀ fault, s.machine.state ≠ .faulted fault) :
    ∃ opened, openReport config s = .ok () opened ∧ outcome.Tells config opened after.machine := by
  obtain ⟨opened, r, opening, ran, reported⟩ := execute_ok returned
  obtain ⟨tried, course⟩ := runConfigured_course ran
  refine ⟨opened, opening, ?_⟩
  cases course with
  | completed steps _ count =>
    obtain ⟨same, machine⟩ := reportResult_ok reported
    cases same
    rw [machine]
    apply Outcome.tells_of_state steps count (limit_of_running ran)
    -- A machine that faulted without a failing step had faulted before the run.
    intro fault faulted
    obtain ⟨-, rfl⟩ := steps.of_faulted faulted
    exact fine fault (by rw [← faulted, openReport_ok opening]; rfl)
  | @failed _ _ _ e _ _ _ failed =>
    obtain ⟨same, machine⟩ := reportResult_ok reported
    rw [machine]
    cases e with
    | fault fault =>
      cases same
      exact Outcome.tells_of_fault (((step_failed failed).faulted_iff rfl _).mpr rfl)
    | _ => cases same

theorem runConfigured_stopped (stopped : s.machine.state ≠ .running) (config : Config) :
    runConfigured config s = some (.ok 0 s) := by
  unfold runConfigured
  split
  · rw [runLimited_stopped stopped]
  · exact run_stopped stopped

theorem execute_faulted
    (returned : execute config s = some (.ok outcome after)) {fault : Fault}
    (faulted : s.machine.state = .faulted fault) :
    outcome = .cycleLimit 0 ∧ after.machine.state = .faulted fault := by
  obtain ⟨opened, r, opening, ran, reported⟩ := execute_ok returned
  have state : opened.machine.state = .faulted fault := by
    rw [openReport_ok opening]
    exact faulted
  have stopped : opened.machine.state ≠ .running := by
    rw [state]
    nofun
  rw [runConfigured_stopped stopped, Option.some.injEq] at ran
  subst ran
  obtain ⟨same, machine⟩ := reportResult_ok reported
  cases same
  rw [machine, endState, state]
  exact ⟨rfl, rfl⟩

/-- The outcome of a report, from any start. -/
theorem reported_outcome
    (returned : execute config s = some (.ok outcome after)) :
    ((∀ fault, s.machine.state ≠ .faulted fault) →
      ∃ opened, openReport config s = .ok () opened ∧ outcome.Tells config opened after.machine) ∧
    ∀ fault, s.machine.state = .faulted fault →
      outcome = .cycleLimit 0 ∧ after.machine.state = .faulted fault :=
  ⟨execute_tells returned, fun _ => execute_faulted returned⟩

-- A fresh machine that is given a fault before it runs, without input.
def wrecked : Session Script Transcript :=
  ⟨{ Machine.fresh with state := .faulted (.unknownOpcode 0 0) }, ⟨⟨[]⟩, {}, {}⟩⟩

/-- Without a limit, the report on the wrecked machine says that it met one. -/
theorem wrecked_reported_suspended :
    wrecked.machine.memory.cells.size = 10000 ∧ wrecked.machine.registers.counter.toNat < 100 ∧
      wrecked.console.output.limit = none ∧
      ∃ after, execute {} wrecked = some (.ok (.cycleLimit 0) after) ∧
        after.machine.state = .faulted (.unknownOpcode 0 0) ∧
        (Outcome.cycleLimit 0).exitCode = 3 := by
  refine ⟨Array.size_replicate, by decide, rfl, ?_⟩
  have held : Transcript.Holds wrecked.console.output "" := ⟨rfl, rfl⟩
  obtain ⟨opened, opening, machine, -, held'⟩ := openReport_comes Transcript.reliable held {}
  have state : opened.machine.state = .faulted (.unknownOpcode 0 0) := by rw [machine]; rfl
  have stopped : opened.machine.state ≠ .running := by rw [state]; nofun
  obtain ⟨after, closed, same, -⟩ := closeReport_comes Transcript.reliable held' (.cycleLimit 0)
  refine ⟨after, ?_, by rw [same, state], rfl⟩
  rw [execute_of_opened opening, runConfigured_stopped stopped, Option.map_some,
    reportResult, state]
  exact congrArg some closed

theorem reported_outcome_shortLived :
    (∀ fault, shortLived.machine.state ≠ .faulted fault) ∧
    ∃ opened after, openReport ⟨false, some 1⟩ shortLived = .ok () opened ∧
      execute ⟨false, some 1⟩ shortLived = some (.ok (.cycleLimit 1) after) ∧
      (Outcome.cycleLimit 1).Tells ⟨false, some 1⟩ opened after.machine ∧
      after.machine.state = .running := by
  have fine : ∀ fault, shortLived.machine.state ≠ .faulted fault := nofun
  obtain ⟨opened, last, opening, ran, running, limit⟩ : ∃ opened last,
      openReport ⟨false, some 1⟩ shortLived = .ok () opened ∧
      runConfigured ⟨false, some 1⟩ opened = some (.ok 1 last) ∧
      last.machine.state = .running ∧ last.console.output.limit = none :=
    ⟨_, _, by rfl, by rfl, by rfl, by rfl⟩
  obtain ⟨after, closed, -⟩ :=
    closeReport_comes Transcript.reliable ⟨limit, rfl⟩ (.cycleLimit 1)
  have returned : execute ⟨false, some 1⟩ shortLived = some (.ok (.cycleLimit 1) after) := by
    rw [execute_of_opened opening, ran, Option.map_some, reportResult, running]
    exact congrArg some closed
  obtain ⟨opened', opening', tells⟩ := (reported_outcome returned).1 fine
  exact ⟨fine, opened', after, opening', returned, tells, (tells.limited 1 rfl).1⟩

end DecimalMachine
