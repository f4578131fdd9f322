import DecimalMachine.Proofs.Dialogue
import DecimalMachine.Proofs.Steps

/-!
The machine refines the instruction table, over whole runs.

`step_follows` is one step, `reaches_of_runEnd` carries it through a run of any length, and
`runs_refine_table` reads off the limited run and the run without a limit.
-/

namespace DecimalMachine

def Session.view (s : Session Script Transcript) : Reference.State :=
  s.machine.view s.console.input.values s.console.output.text

/-- The memory is whole, and the transcript takes everything. -/
structure Session.Regular (s : Session Script Transcript) : Prop where
  whole : s.machine.Whole
  unlimited : s.console.output.limit = none

theorem Machine.Whole.settle {m : Machine} (whole : m.Whole) (settled : Except Fault Change) :
    (m.settle settled).Whole := by
  cases settled with
  | error fault => exact ⟨whole.size, whole.counter⟩
  | ok change =>
    refine ⟨(m.commit_size change).trans whole.size, ?_⟩
    cases change with
    | halt first last => exact whole.counter
    | _ => exact Nat.lt_trans (Machine.jump_counter_lt _ _) (by decide)

theorem Machine.settle_trace (m : Machine) (settled : Except Fault Change) :
    (m.settle settled).trace = m.trace := by
  cases settled with
  | error fault => rfl
  | ok change => cases change <;> rfl

theorem State.status_running_iff (s : State) : s.status = .running ↔ s = .running := by
  cases s <;> simp [status]

namespace Session

variable {s after : Session Script Transcript}

theorem view_running_iff (s : Session Script Transcript) :
    s.view.status = .running ↔ s.machine.state = .running :=
  s.machine.state.status_running_iff

/-- What a step of a regular session leaves, in the terms of the table. -/
structure Follows (before after : Session Script Transcript) : Prop where
  regular : after.Regular
  trace : after.machine.trace = before.machine.trace
  view : after.view = Reference.step before.machine.trace before.view

theorem step_of_performed {m : Machine} {c c' : Console Script Transcript} {w : Word}
    {settled : Except Fault Change} (running : m.state = .running)
    (fetched : m.memory.read m.location = .ok w)
    (performed : (m.withInstruction w).perform c = .ok settled c') :
    endState (step ⟨m, c⟩) = ⟨(m.withInstruction w).settle settled, c'⟩ := by
  simp only [step, Machine.latch_of_read running fetched, performed]
  cases settled <;> rfl

theorem step_follows (regular : s.Regular) (running : s.machine.state = .running) :
    s.Follows (endState (step s)) := by
  obtain ⟨m, c⟩ := s
  have whole : m.Whole := regular.whole
  obtain ⟨w, fetched, value⟩ := Machine.read_of_lt whole whole.counter
  have latched : (m.withInstruction w).Whole := ⟨whole.size, whole.counter⟩
  obtain ⟨settled, unread', output', spoken, follows⟩ :=
    Machine.perform_follows latched c.input.values c.output.text
  obtain ⟨c', performed, heard⟩ := spoken c ⟨rfl, rfl, regular.unlimited⟩
  rw [step_of_performed running fetched performed]
  refine ⟨⟨latched.settle settled, heard.unlimited⟩, (m.withInstruction w).settle_trace settled, ?_⟩
  have status : (m.view c.input.values c.output.text).status = .running :=
    m.state.status_running_iff.mpr running
  have word : (m.view c.input.values c.output.text).cells
      (m.view c.input.values c.output.text).counter = w.value :=
    (congrArg m.cell (Fin.ext (Machine.counter_val whole))).trans value.symm
  simp only [view, heard.unread, heard.output, Reference.step, status, word]
  exact follows

theorem follows_of_end {r : EStateM.Result StepError (Session Script Transcript) Instruction}
    (regular : s.Regular) (running : s.machine.state = .running) (ended : step s = r) :
    s.Follows (endState r) :=
  ended ▸ step_follows regular running

theorem step_error (regular : s.Regular) (running : s.machine.state = .running) {e : StepError}
    (failed : step s = .error e after) :
    ∃ fault, e = .fault fault ∧ after.machine.state = .faulted fault := by
  obtain ⟨m, c⟩ := s
  obtain ⟨w, found, -⟩ := Machine.read_of_lt regular.whole regular.whole.counter
  have latched : (m.withInstruction w).Whole := ⟨regular.whole.size, regular.whole.counter⟩
  obtain ⟨settled, _, _, spoken, -⟩ :=
    Machine.perform_follows latched c.input.values c.output.text
  obtain ⟨c', comes, -⟩ := spoken c ⟨rfl, rfl, regular.unlimited⟩
  have ended := step_cases m c
  rw [failed] at ended
  cases ended with
  | stopped stopped => exact absurd running stopped
  | unreadable _ unreadable => cases unreadable.symm.trans found
  | broken _ fetched performed =>
    cases fetched.symm.trans found
    cases performed.symm.trans comes
  | faulted _ fetched performed => exact ⟨_, rfl, rfl⟩

theorem view_faulted {fault : Fault} (faulted : s.machine.state = .faulted fault) :
    s.view.status = .faulted fault.reason fault.location.toNat :=
  congrArg State.status faulted

theorem view_not_faulted (fine : ∀ fault, s.machine.state ≠ .faulted fault)
    (reason : Reference.Reason) (location : Nat) : s.view.status ≠ .faulted reason location := by
  intro faulted
  cases state : s.machine.state with
  | faulted fault => exact fine fault state
  | running => cases (congrArg State.status state).symm.trans faulted
  | halted first last => cases (congrArg State.status state).symm.trans faulted

/-! ### Runs -/

structure Reaches (before : Session Script Transcript) (n : Nat)
    (after : Session Script Transcript) : Prop where
  regular : after.Regular
  trace : after.machine.trace = before.machine.trace
  view : after.view = (Reference.step before.machine.trace)^[n] before.view

theorem Reaches.of_stopped (regular : s.Regular) (stopped : s.machine.state ≠ .running) (n : Nat) :
    s.Reaches n s := by
  refine ⟨regular, rfl, (Function.iterate_fixed ?_ n).symm⟩
  exact Reference.step_stopped (mt s.view_running_iff.mp stopped) s.machine.trace

theorem Follows.trans {middle : Session Script Transcript} {n : Nat} (first : s.Follows middle)
    (rest : middle.Reaches n after) : s.Reaches (n + 1) after := by
  refine ⟨rest.regular, rest.trace.trans first.trace, ?_⟩
  rw [rest.view, first.view, first.trace]
  rfl

theorem reaches_of_runEnd {n : Nat} {r : EStateM.Result StepError (Session Script Transcript) Unit}
    (ends : RunEnd n s r) (regular : s.Regular) : s.Reaches n (endState r) := by
  induction ends with
  | limited s => exact ⟨regular, rfl, rfl⟩
  | stopped n stopped => exact .of_stopped regular stopped (n + 1)
  | @failed n s after e running failed =>
    have first : s.Follows after := follows_of_end regular running failed
    obtain ⟨fault, -, faulted⟩ := step_error regular running failed
    have stopped : after.machine.state ≠ .running := by
      rw [faulted]
      nofun
    exact first.trans (.of_stopped first.regular stopped n)
  | @further n s middle i r running done rest ih =>
    have first : s.Follows middle := follows_of_end regular running done
    exact first.trans (ih first.regular)

theorem completes_of_runEnd {n : Nat}
    {r : EStateM.Result StepError (Session Script Transcript) Unit} (ends : RunEnd n s r)
    (regular : s.Regular) (room : s.machine.cycles.toNat + n ≤ fullCount)
    (ended : r = .ok () after) :
    ∃ k, after.machine.cycles.toNat = s.machine.cycles.toNat + k ∧
      Reference.Completes s.machine.trace s.view n k := by
  induction ends with
  | limited s =>
    cases ended
    exact ⟨0, rfl, Nat.le_refl 0, nofun, nofun, nofun⟩
  | stopped n stopped =>
    cases ended
    exact ⟨0, rfl, .of_stopped (mt (view_running_iff _).mp stopped) (n + 1)⟩
  | failed n running failed => cases ended
  | @further n s middle i r running done rest ih =>
    have first : s.Follows middle := follows_of_end regular running done
    have counted := step_cycles_toNat done (by omega)
    obtain ⟨k, count, completes⟩ := ih first.regular (by omega) ended
    rw [first.trace, first.view] at completes
    refine ⟨k + 1, by omega, completes.succ (s.view_running_iff.mpr running) ?_⟩
    rw [← first.view]
    exact view_not_faulted (not_faulted_of_done done)

theorem faults_of_runEnd {n : Nat} {r : EStateM.Result StepError (Session Script Transcript) Unit}
    {e : StepError} (ends : RunEnd n s r) (regular : s.Regular) (ended : r = .error e after) :
    ∃ fault, e = .fault fault ∧
      Reference.Faults s.machine.trace s.view n fault.reason fault.location.toNat := by
  induction ends with
  | limited s => cases ended
  | stopped n stopped => cases ended
  | @failed n s last e' running failed =>
    cases ended
    have first : s.Follows after := follows_of_end regular running failed
    obtain ⟨fault, rfl, faulted⟩ := step_error regular running failed
    refine ⟨fault, rfl, .first (s.view_running_iff.mpr running) ?_ n⟩
    rw [← first.view]
    exact view_faulted faulted
  | @further n s middle i r running done rest ih =>
    have first : s.Follows middle := follows_of_end regular running done
    obtain ⟨fault, rfl, faults⟩ := ih first.regular ended
    rw [first.trace, first.view] at faults
    exact ⟨fault, rfl, faults.succ (s.view_running_iff.mpr running)⟩

/-- The result of a run tells how the machine of the table goes on for `n` transitions. -/
structure Reports (start : Session Script Transcript) (n : Nat)
    (r : EStateM.Result StepError (Session Script Transcript) UInt64) : Prop where
  view : (endState r).view = (Reference.step start.machine.trace)^[n] start.view
  completed : ∀ k after, r = .ok k after →
    Reference.Completes start.machine.trace start.view n k.toNat
  faulted : ∀ e after, r = .error e after → ∃ fault, e = .fault fault ∧
    Reference.Faults start.machine.trace start.view n fault.reason fault.location.toNat

theorem runLimited_reports {limit : UInt64} (regular : s.Regular)
    (room : s.machine.cycles.toNat + limit.toNat ≤ fullCount) :
    s.Reports limit.toNat (runLimited limit s) := by
  have ends := runFor_ends limit.toNat s
  refine ⟨?_, ?_, ?_⟩
  · rw [runLimited_eq room, endState_counted]
    exact (reaches_of_runEnd ends regular).view
  · intro k after ended
    obtain ⟨ran, -, count, -⟩ := runLimited_ok room ended
    obtain ⟨steps, count', completes⟩ := completes_of_runEnd ends regular room ran
    have same : steps = k.toNat := by omega
    exact same ▸ completes
  · intro e after ended
    rw [runLimited_eq room] at ended
    exact faults_of_runEnd ends regular (counted_error ended)

theorem reports_last_step {middle : Session Script Transcript} {k : UInt64} {e : StepError}
    {n : Nat} (regular : middle.Regular) (trace : middle.machine.trace = s.machine.trace)
    (reports : s.Reports n (.ok k middle)) (running : middle.machine.state = .running)
    (failed : step middle = .error e after) : s.Reports (n + 1) (.error e after) := by
  have first : middle.Follows after := follows_of_end regular running failed
  have reached : middle.view = (Reference.step s.machine.trace)^[n] s.view := reports.view
  have status := middle.view_running_iff.mpr running
  have view : after.view = (Reference.step s.machine.trace)^[n + 1] s.view := by
    rw [Function.iterate_succ_apply', ← reached, first.view, trace]
  obtain ⟨fault, rfl, faulted⟩ := step_error regular running failed
  have faults : Reference.Faults s.machine.trace s.view (n + 1) fault.reason
      fault.location.toNat := by
    refine ⟨n, Nat.lt_succ_self n, ?_, ?_⟩
    · have completes := reports.completed k middle rfl
      have all_steps : k.toNat = n := by
        -- With fewer instructions than transitions, the machine would have stopped before.
        by_contra fewer
        have stopped := completes.stopped (Nat.lt_of_le_of_ne completes.bound fewer)
        rw [← Reference.iterate_stopped stopped completes.bound, ← reached] at stopped
        exact stopped status
      intro j below
      rcases Nat.lt_or_eq_of_le below with before | rfl
      · exact completes.running j (all_steps ▸ before)
      · exact reached ▸ status
    · rw [← view]
      exact view_faulted faulted
  refine ⟨view, ?_, ?_⟩
  · intro j last ended
    cases ended
  · rintro e' last ⟨⟩
    exact ⟨fault, rfl, faults⟩

theorem Reports.stopped {n : Nat} {r : EStateM.Result StepError (Session Script Transcript) UInt64}
    (reports : s.Reports n r) (final : IsFinal r) :
    ((Reference.step s.machine.trace)^[n] s.view).status ≠ .running := by
  cases r with
  | ok k after =>
    rw [← reports.view]
    exact mt after.view_running_iff.mp final
  | error e after =>
    obtain ⟨fault, -, faults⟩ := reports.faulted e after rfl
    rw [faults.status]
    nofun

theorem run_reports {r : EStateM.Result StepError (Session Script Transcript) UInt64}
    (regular : s.Regular) (ended : run s = some r) :
    ∃ n, s.Reports n r ∧ ((Reference.step s.machine.trace)^[n] s.view).status ≠ .running := by
  rcases (run_eq_some_iff s r).mp ended with
    ⟨limit, room, rfl, final⟩ | ⟨limit, k, middle, last, e, full, limited, running, failed, rfl⟩
  · have reports := runLimited_reports regular room
    exact ⟨limit.toNat, reports, reports.stopped final⟩
  · -- The count is full and the machine still runs, so that the run fails in its next step.
    have reports := runLimited_reports regular (Nat.le_of_eq full)
    have reaches := reaches_of_runEnd (runFor_ends limit.toNat s) regular
    rw [limited] at reports
    rw [(runLimited_ok (Nat.le_of_eq full) limited).1] at reaches
    have beyond := reports_last_step reaches.regular reaches.trace reports running failed
    exact ⟨limit.toNat + 1, beyond, beyond.stopped trivial⟩

theorem run_of_stopped {n : Nat} (regular : s.Regular)
    (room : s.machine.cycles.toNat + n ≤ fullCount)
    (stopped : ((Reference.step s.machine.trace)^[n] s.view).status ≠ .running) :
    ∃ r, run s = some r ∧ s.Reports n r := by
  have limit : (UInt64.ofNat n).toNat = n :=
    UInt64.toNat_ofNat_of_lt' (by simp only [fullCount] at room; simp only [UInt64.size]; omega)
  have reports : s.Reports n (runLimited (UInt64.ofNat n) s) := by
    have reports : s.Reports (UInt64.ofNat n).toNat (runLimited (UInt64.ofNat n) s) :=
      runLimited_reports regular (by omega)
    rwa [limit] at reports
  have final : IsFinal (runLimited (UInt64.ofNat n) s) := by
    rw [← reports.view] at stopped
    cases ended : runLimited (UInt64.ofNat n) s with
    | error e after => trivial
    | ok k after =>
      rw [ended] at stopped
      exact mt after.view_running_iff.mpr stopped
  exact ⟨_, (run_eq_some_iff s _).mpr (.inl ⟨_, by omega, rfl, final⟩), reports⟩

end Session

/-- Steps and runs do what the table says, for any program, input and length of run. -/
theorem runs_refine_table (s : Session Script Transcript)
    (size : s.machine.memory.cells.size = 10000)
    (counter : s.machine.registers.counter.toNat < 10000)
    (unlimited : s.console.output.limit = none) :
    (endState (step s)).view = Reference.step s.machine.trace s.view ∧
    (∀ limit : UInt64, s.machine.cycles.toNat + limit.toNat ≤ fullCount →
      s.Reports limit.toNat (runLimited limit s)) ∧
    (∀ r, run s = some r → ∃ n, s.Reports n r ∧
      ((Reference.step s.machine.trace)^[n] s.view).status ≠ .running) ∧
    (∀ n, s.machine.cycles.toNat + n ≤ fullCount →
      ((Reference.step s.machine.trace)^[n] s.view).status ≠ .running →
        ∃ r, run s = some r ∧ s.Reports n r) := by
  have regular : s.Regular := ⟨⟨size, counter⟩, unlimited⟩
  refine ⟨?_, fun _ => Session.runLimited_reports regular, fun _ => Session.run_reports regular,
    fun _ => Session.run_of_stopped regular⟩
  by_cases running : s.machine.state = .running
  · exact (Session.step_follows regular running).view
  · rw [step_stopped running, Reference.step_stopped (mt s.view_running_iff.mp running)]
    rfl

-- A machine that reads its second instruction.
def selfMade : Session Script Transcript :=
  ⟨{ Machine.fresh with
      memory := Memory.blank.set 0 ⟨100001, by decide, by decide⟩
      trace := false },
    ⟨⟨[450007, 8]⟩, {}, {}⟩⟩

theorem runs_refine_table_selfMade :
    selfMade.machine.memory.cells.size = 10000 ∧
    selfMade.machine.registers.counter.toNat < 10000 ∧
    selfMade.console.output.limit = none ∧
    ∃ r, run selfMade = some r ∧ (endState r).view.status = .halted 0 7 ∧
      (endState r).view.unread = [8] ∧ (endState r).view.output = "? " := by
  have size : selfMade.machine.memory.cells.size = 10000 :=
    (Memory.size_set _ _ _).trans Array.size_replicate
  have counter : selfMade.machine.registers.counter.toNat < 10000 := Nat.zero_lt_succ 9999
  have refines := runs_refine_table selfMade size counter rfl
  have first_cell : selfMade.machine.cell 0 = 100001 := by
    have inside : Memory.blank.contains 0 = true := Memory.contains_blank (by decide)
    have found : selfMade.machine.memory.read 0 = .ok ⟨100001, by decide, by decide⟩ :=
      Memory.read_set_self inside _
    exact Machine.cell_of_read found (Nat.zero_lt_succ 9999)
  obtain ⟨cells, cell, view⟩ : ∃ cells : Reference.Address → Int, cells 0 = 100001 ∧
      selfMade.view = ⟨cells, 0, 0, 0, .running, [450007, 8], ""⟩ := ⟨_, first_cell, rfl⟩
  have first : Reference.step false ⟨cells, 0, 0, 0, .running, [450007, 8], ""⟩ =
      ⟨Function.update cells 1 450007, 0, 0, 1, .running, [8], "? "⟩ := by
    simp only [Reference.step, cell]
    rfl
  have second : Reference.step false
      ⟨Function.update cells 1 450007, 0, 0, 1, .running, [8], "? "⟩ =
      ⟨Function.update cells 1 450007, 0, 0, 1, .halted 0 7, [8], "? "⟩ := by
    simp only [Reference.step, Function.update_self]
    rfl
  have twice : (Reference.step selfMade.machine.trace)^[2] selfMade.view =
      ⟨Function.update cells 1 450007, 0, 0, 1, .halted 0 7, [8], "? "⟩ := by
    rw [view]
    exact (congrArg (Reference.step false) first).trans second
  have stopped : ((Reference.step selfMade.machine.trace)^[2] selfMade.view).status ≠ .running := by
    simp [twice]
  obtain ⟨r, ran, reports⟩ := refines.2.2.2 2 (by decide) stopped
  have reached := reports.view.trans twice
  refine ⟨size, counter, rfl, r, ran, ?_⟩
  rw [reached]
  exact ⟨rfl, rfl, rfl⟩

end DecimalMachine
