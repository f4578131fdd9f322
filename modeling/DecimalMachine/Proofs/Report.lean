import DecimalMachine.Proofs.Invariant
import DecimalMachine.Proofs.Lockstep
import DecimalMachine.Proofs.Outcome

/-!
The text of a complete run, from the banner to the dump.

At an output that never fails, the banner leaves the machine and the input as they are, so that the
run goes as it would without a report. `Course.writes` gives the text of its steps and `Closing`
what comes after it.
-/

namespace DecimalMachine

variable {ι ω : Type} [Source ι] [Sink ω] {holds : ω → String → Prop} {s : Session ι ω}
  {text : String}

/-! ### Failed steps -/

theorem Machine.Sound.latches {m : Machine} (sound : m.Sound) (running : m.state = .running) :
    ∃ l, m.latch = .ok l := by
  cases fetched : m.memory.read m.location with
  | ok w => exact ⟨_, latch_of_read running fetched⟩
  | error e =>
    have inside : m.location.toNat < m.memory.cells.size := by
      rw [sound.size]
      exact Nat.lt_trans sound.counter (by decide)
    cases fetched.symm.trans (Memory.read_of_lt inside)

theorem Machine.reply_error {m : Machine} {input : ι} {e : IoError}
    (failed : (m.reply input).settled = .error e) :
    m.current.opcode = .read ∧ (Source.read input).1.outcome = .error e := by
  cases planned : m.plan m.current with
  | error fault => simp [reply, planned] at failed
  | ok action =>
    cases action with
    | change change => simp [reply, planned] at failed
    | print w => simp [reply, planned] at failed
    | ask address =>
      have asked := (m.plan_yields m.current).of_ok planned
      simp only [reply, planned] at failed
      cases outcome : (Source.read input).1.outcome with
      | ok value => simp [outcome, Except.map] at failed
      | error e' =>
        simp only [outcome, Except.map, Except.error.injEq] at failed
        cases asked with
        | ask op => exact ⟨op, by rw [failed]⟩

/-- The session is at a `READ`, and the input fails with this error. -/
def Session.MisreadsWith (s : Session ι ω) (e : IoError) : Prop :=
  (∃ l, s.machine.latch = .ok l ∧ l.current.opcode = .read) ∧
    (Source.read s.console.input).1.outcome = .error e

theorem failed_step_cause {last : Session ι ω} {e : StepError} (reliable : Reliable holds)
    (held : holds s.console.output text) (sound : s.machine.Sound)
    (running : s.machine.state = .running) (failed : step s = .error e last) :
    (∃ fault, e = .fault fault ∧ last.machine.state = .faulted fault) ∨
      ∃ failure, e = .io failure ∧ s.MisreadsWith failure := by
  obtain ⟨l, latched⟩ := sound.latches running
  obtain ⟨console, -, -, stepped⟩ := Session.step_of_latched reliable held latched
  rw [failed] at stepped
  cases settled : (l.reply s.console.input).settled with
  | error failure =>
    rw [settled] at stepped
    cases stepped
    obtain ⟨op, misread⟩ := Machine.reply_error settled
    exact .inr ⟨failure, rfl, ⟨l, latched, op⟩, misread⟩
  | ok comes =>
    rw [settled] at stepped
    cases comes with
    | error fault =>
      cases stepped
      exact .inl ⟨fault, rfl, rfl⟩
    | ok change => cases stepped

theorem Steps.sound {after : Session ι ω} {passed : List (Session ι ω)}
    (steps : Steps s passed after) (sound : s.machine.Sound) : after.machine.Sound := by
  have kept := steps.kept (P := fun u => u.machine.Sound) (fun sound done => sound.completed done)
    sound
  exact kept.2

/-! ### The last lines -/

/-- How a run of `count` tried steps is reported. -/
inductive Closing (config : Config) (count : Nat) :
    EStateM.Result StepError (Session ι ω) UInt64 → Outcome → String → Prop where
  | halted {k first final : UInt64} {last : Session ι ω}
      (state : last.machine.state = .halted first final)
      (op : last.machine.current.opcode = .halt)
      (first_page : first.toNat = last.machine.current.operand.toNat / 100)
      (final_page : final.toNat = last.machine.current.operand.toNat % 100) :
      Closing config count (.ok k last) (.halted first final)
        ("*** Simpletron execution terminated ***\n" ++ last.machine.dumpText first final)
  | faulted {fault : Fault} {last : Session ι ω} (state : last.machine.state = .faulted fault) :
      Closing config count (.error (.fault fault) last) (.faulted fault)
        ("*** Simpletron execution abnormally terminated ***\n" ++
          ("*** " ++ fault.message ++ " ***\n") ++ last.machine.dumpText 0 0)
  | suspended {k limit : UInt64} {last : Session ι ω} (state : last.machine.state = .running)
      (configured : config.maxCycles = some limit) (executed : k.toNat = count) :
      Closing config count (.ok k last) (.cycleLimit k)
        ("*** Simpletron execution suspended after " ++ toString k.toNat ++ " instructions ***\n" ++
          last.machine.dumpText 0 0)

theorem closing_halted (first final : UInt64) (m : Machine) :
    (Outcome.halted first final).closing m =
      "*** Simpletron execution terminated ***\n" ++ m.dumpText first final := by
  simp [Outcome.closing, Outcome.lines, Outcome.pages]

theorem closing_faulted (fault : Fault) (m : Machine) :
    (Outcome.faulted fault).closing m = "*** Simpletron execution abnormally terminated ***\n" ++
      ("*** " ++ fault.message ++ " ***\n") ++ m.dumpText 0 0 := by
  simp [Outcome.closing, Outcome.lines, Outcome.pages, String.append_assoc]

theorem closing_cycleLimit (k : UInt64) (m : Machine) :
    (Outcome.cycleLimit k).closing m = "*** Simpletron execution suspended after " ++
      toString k.toNat ++ " instructions ***\n" ++ m.dumpText 0 0 := by
  have line : String.join ((Outcome.cycleLimit k).lines.map (· ++ "\n")) =
      "*** Simpletron execution suspended after " ++ toString k.toNat ++
        (" instructions ***" ++ "\n") := by
    rw [← String.append_assoc]
    exact String.empty_append
  rw [Outcome.closing, line]
  rfl

omit [Source ι] [Sink ω] in
theorem Closing.of_ok {config : Config} {count : Nat} {k : UInt64} {last : Session ι ω}
    (sound : last.machine.Sound) (fine : ∀ fault, last.machine.state ≠ .faulted fault)
    (limit : last.machine.state = .running → ∃ limit, config.maxCycles = some limit)
    (executed : k.toNat = count) :
    Closing config count (.ok k last) (.ofState k last.machine.state)
      ((Outcome.ofState k last.machine.state).closing last.machine) := by
  cases state : last.machine.state with
  | running =>
    obtain ⟨limit, configured⟩ := limit state
    rw [Outcome.ofState, closing_cycleLimit]
    · exact .suspended state configured executed
    · rintro first final ⟨⟩
  | halted first final =>
    obtain ⟨op, pages⟩ := sound.halted first final state
    have numbers := last.machine.current.haltPages_toNat
    rw [pages] at numbers
    rw [Outcome.ofState, closing_halted]
    exact .halted state op numbers.1 numbers.2
  | faulted fault => exact absurd state (fine fault)

theorem closing_of_course {config : Config} {tried : List (Session ι ω)}
    {r : EStateM.Result StepError (Session ι ω) UInt64} (reliable : Reliable holds)
    (held : holds s.console.output text) (sound : s.machine.Sound)
    (running : s.machine.state = .running) (ran : runConfigured config s = some r)
    (course : Course s tried r) :
    (∃ outcome, reportedAs r = some outcome ∧
      Closing config tried.length r outcome (outcome.closing (endState r).machine)) ∨
    ∃ failure last stuck, r = .error (.io failure) last ∧ tried.getLast? = some stuck ∧
      stuck.MisreadsWith failure := by
  cases course with
  | completed steps room count =>
    refine .inl ⟨_, rfl, Closing.of_ok (steps.sound sound) ?_ (limit_of_running ran) count⟩
    intro fault faulted
    obtain ⟨-, rfl⟩ := steps.of_faulted faulted
    cases faulted.symm.trans running
  | @failed passed stuck last e steps room stuck_running failed =>
    rcases failed_step_cause reliable (steps.writes reliable held) (steps.sound sound)
        stuck_running failed with ⟨fault, rfl, state⟩ | ⟨failure, rfl, misread⟩
    · refine .inl ⟨_, rfl, ?_⟩
      rw [closing_faulted]
      exact .faulted state
    · exact .inr ⟨failure, last, stuck, rfl, by simp, misread⟩

/-! ### The whole text -/

theorem Lockstep.runConfigured {ψ : Type} [Sink ψ] {R : Session ι ω → Session ι ψ → Prop}
    {t : Session ι ψ} {config : Config} {r : EStateM.Result StepError (Session ι ω) UInt64}
    (lock : Lockstep R) (related : R s t) (same : s.machine.cycles = t.machine.cycles)
    (ran : runConfigured config s = some r) :
    ∃ r', DecimalMachine.runConfigured config t = some r' ∧ Abreast R s t r r' := by
  unfold DecimalMachine.runConfigured at ran ⊢
  cases configured : config.maxCycles with
  | some limit =>
    simp only [configured, Option.some.injEq] at ran ⊢
    subst ran
    exact ⟨_, rfl, lock.runLimited related (by rw [Machine.countLeft, Machine.countLeft, same])⟩
  | none =>
    simp only [configured] at ran ⊢
    obtain ⟨tried, course, -⟩ := run_eq_iff.mp ran
    apply lock.run related ran
    rw [UInt64.toNat_sub_of_le _ _ course.cycles_le, Machine.countLeft, same]
    have := (endState r).machine.cycles.toNat_lt
    simp only [fullCount]
    omega

omit [Sink ω] in
theorem written_of_beside {holds' : ω → String → Prop} {t : Session ι ω}
    (beside : s.Beside Eq holds holds' t) : s.written = t.written := by
  have same : s.alone = t.alone := by
    unfold Session.alone
    rw [beside.machine, beside.input]
  rw [Session.written, Session.written, same]

omit [Sink ω] in
theorem allWritten_of_beside {holds' : ω → String → Prop} {tried tried' : List (Session ι ω)}
    (all : List.Forall₂ (Session.Beside Eq holds holds') tried tried') :
    allWritten tried = allWritten tried' :=
  allWritten_congr (all.imp fun _ _ beside => written_of_beside beside)

omit [Source ι] [Sink ω] in
theorem reportedAs_of_alike {holds' : ω → String → Prop} {outcome : Outcome}
    {r r' : EStateM.Result StepError (Session ι ω) UInt64}
    (alike : Alike (Session.Beside Eq holds holds') r r')
    (reported : reportedAs r' = some outcome) :
    reportedAs r = some outcome := by
  cases alike with
  | ok related =>
    rw [← reported, reportedAs, reportedAs, related.machine]
  | @error e _ _ related => cases e <;> exact reported

/-- The text of a report, from a running machine: the banner, what the steps write, and the last
lines. Machine and input end as they do without a report. It is cut short only by a failing input.
-/
theorem execute_transcript {config : Config} {r : EStateM.Result StepError (Session ι ω) Outcome}
    (reliable : Reliable holds) (held : holds s.console.output text)
    (running : s.machine.state = .running) (size : s.machine.memory.cells.size = 10000)
    (counter : s.machine.registers.counter.toNat < 100) (returned : execute config s = some r) :
    ∃ tried ended, runConfigured config (s.configured config) = some ended ∧
      Course (s.configured config) tried ended ∧
      (endState r).machine = (endState ended).machine ∧
      (endState r).console.input = (endState ended).console.input ∧
      ((∃ failure last stuck, r = .error (.io failure) last ∧ tried.getLast? = some stuck ∧
          stuck.MisreadsWith failure) ∨
        ∃ outcome after told, r = .ok outcome after ∧
          Closing config tried.length ended outcome told ∧
          holds after.console.output
            (text ++ "*** Program execution begins ***\n" ++ allWritten tried ++ told)) := by
  have sound : (s.configured config).machine.Sound := Machine.Sound.start running size counter
  -- The banner touches only the output, so that the run goes as it does without it.
  obtain ⟨opened, opening, machine, input, heard⟩ := openReport_comes reliable held config
  rw [execute_of_opened opening] at returned
  obtain ⟨result, ran, rfl⟩ := Option.map_eq_some_iff.mp returned
  have beside : opened.Beside Eq holds holds (s.configured config) :=
    ⟨machine, input, ⟨_, heard⟩, ⟨_, held⟩⟩
  have lock := Machine.parallel_eq.lockstep (ι := ι) reliable reliable
  obtain ⟨ended, ran', _, tried, course, course', all, alike⟩ :=
    lock.runConfigured beside (congrArg Machine.cycles machine) ran
  have told := course.writes reliable heard
  rw [allWritten_of_beside all] at told
  refine ⟨tried, ended, ran', course', ?_⟩
  rcases closing_of_course (s := s.configured config) reliable held sound running ran' course' with
    ⟨outcome, reported, closing⟩ | ⟨failure, last, stuck, rfl, final, misread⟩
  · obtain ⟨after, reported, machine, input, heard⟩ :=
      reportResult_comes reliable told (reportedAs_of_alike alike reported)
    rw [reported]
    rw [alike.related.machine] at machine heard
    exact ⟨machine, input.trans alike.related.input, .inr ⟨outcome, after, _, rfl, closing, heard⟩⟩
  · cases alike with
    | error related =>
      exact ⟨related.machine, related.input, .inl ⟨failure, _, stuck, rfl, final, misread⟩⟩

theorem execute_transcript_poked :
    poked.machine.state = .running ∧ poked.machine.memory.cells.size = 10000 ∧
    poked.machine.registers.counter.toNat < 100 ∧
    ∃ (after : Session Script Transcript) (tried : List (Session Script Transcript)),
      execute {} poked = some (.ok (.halted 1 23) after) ∧
      after.console.output.text = "*** Program execution begins ***\n" ++ allWritten tried ++
        ("*** Simpletron execution terminated ***\n" ++ after.machine.dumpText 1 23) := by
  have size : poked.machine.memory.cells.size = 10000 := by
    simp [poked, Memory.set, Memory.blank, Memory.capacity]
  have counter : poked.machine.registers.counter.toNat < 100 := by decide
  have held : Transcript.Holds poked.console.output "" := ⟨rfl, rfl⟩
  refine ⟨rfl, size, counter, ?_⟩
  obtain ⟨opened, opening, machine, -, heard⟩ := openReport_comes Transcript.reliable held {}
  have running : opened.machine.state = .running := by rw [machine]; rfl
  have fetched : opened.machine.memory.read opened.machine.location =
      .ok ⟨450123, by decide, by decide⟩ := by
    rw [machine]
    exact Memory.read_set_self (Memory.contains_blank (by decide)) _
  obtain ⟨console, -, heard', halts⟩ := Session.step_of_latched Transcript.reliable heard
    (Machine.latch_of_read running fetched)
  have settled : ((opened.machine.withInstruction ⟨450123, by decide, by decide⟩).reply
      opened.console.input).settled = .ok (.ok (.halt 1 23)) := by
    have decoded : Instruction.ofWord ⟨450123, by decide, by decide⟩ = ⟨.halt, 123⟩ := by decide
    simp only [Machine.reply, Machine.current, Machine.withInstruction, decoded, Machine.plan]
    rfl
  rw [settled] at halts
  obtain ⟨i, last, done, halted⟩ : ∃ i last, step opened = .ok i last ∧
      last.machine.state = .halted 1 23 := ⟨_, _, halts, rfl⟩
  have steps : Steps opened [opened] last := .more done (.none last)
  have ran : runConfigured {} opened = some (.ok 1 last) := by
    refine run_ok_iff.mpr ⟨[opened], steps, ?_, by simp [halted], rfl⟩
    rw [machine]
    exact (by decide : 1 ≤ poked.machine.countLeft)
  obtain ⟨after, closed, -⟩ := closeReport_comes (s := last) Transcript.reliable
    (steps.writes Transcript.reliable heard) (.halted 1 23)
  have returned : execute {} poked = some (.ok (.halted 1 23) after) := by
    rw [execute_of_opened opening, ran, Option.map_some, reportResult, halted]
    exact congrArg some closed
  obtain ⟨tried, ended, -, -, same, -, ⟨_, _, _, misread, -⟩ | ⟨_, _, _, told, closing, heard⟩⟩ :=
    execute_transcript Transcript.reliable held rfl size counter returned
  · cases misread
  · cases told
    cases closing
    refine ⟨after, tried, returned, ?_⟩
    have same : after.machine = _ := same
    rw [same, heard.2, String.empty_append]
    rfl

end DecimalMachine
