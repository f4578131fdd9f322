import DecimalMachine.Proofs.Reliable
import DecimalMachine.Proofs.Runs

/-!
The completed steps of a run, one by one.

Every run is told by them: where they lead, how many there are, and what they write. A run that
fails tries one more.
-/

namespace DecimalMachine

variable {ι ω : Type} [Source ι] [Sink ω]

/-- Completed steps in a row, with the sessions that they were taken from. -/
inductive Steps : Session ι ω → List (Session ι ω) → Session ι ω → Prop where
  | none (s : Session ι ω) : Steps s [] s
  | more {s middle after : Session ι ω} {i : Instruction} {passed : List (Session ι ω)}
      (done : step s = .ok i middle) (rest : Steps middle passed after) :
      Steps s (s :: passed) after

theorem running_of_done {s after : Session ι ω} {i : Instruction} (done : step s = .ok i after) :
    s.machine.state = .running := by
  by_cases running : s.machine.state = .running
  · exact running
  · cases (step_stopped running).symm.trans done

theorem trace_of_done {s after : Session ι ω} {i : Instruction} (done : step s = .ok i after) :
    after.machine.trace = s.machine.trace := by
  obtain ⟨m, c⟩ := s
  have ended := step_cases m c
  rw [done] at ended
  cases ended with
  | completed => exact Machine.commit_trace _ _

theorem not_faulted_of_done {s after : Session ι ω} {i : Instruction} (done : step s = .ok i after)
    (fault : Fault) : after.machine.state ≠ .faulted fault := by
  obtain ⟨m, c⟩ := s
  have ended := step_cases m c
  rw [done] at ended
  cases ended with
  | @completed w change c' running fetched performed =>
    intro faulted
    rw [Machine.commit_state] at faulted
    cases change with
    | halt first last => cases faulted
    | _ => cases faulted.symm.trans running

namespace Steps

variable {s after : Session ι ω} {passed : List (Session ι ω)}

theorem of_faulted (steps : Steps s passed after) {fault : Fault}
    (faulted : after.machine.state = .faulted fault) : passed = [] ∧ after = s := by
  induction steps with
  | none => exact ⟨rfl, rfl⟩
  | more done rest ih =>
    obtain ⟨-, rfl⟩ := ih faulted
    exact absurd faulted (not_faulted_of_done done fault)

theorem cycles_at (steps : Steps s passed after)
    (room : s.machine.cycles.toNat + passed.length ≤ fullCount) {k : Nat} {t : Session ι ω}
    (here : (passed ++ [after])[k]? = some t) :
    t.machine.cycles.toNat = s.machine.cycles.toNat + k := by
  induction steps generalizing k with
  | none s =>
    cases k with
    | zero =>
      cases here
      rfl
    | succ k => cases here
  | more done rest ih =>
    rw [List.length_cons] at room
    cases k with
    | zero =>
      cases here
      rfl
    | succ k =>
      have next := step_cycles_toNat done (by omega)
      have behind := ih (by omega) here
      omega

theorem cycles (steps : Steps s passed after)
    (room : s.machine.cycles.toNat + passed.length ≤ fullCount) :
    after.machine.cycles.toNat = s.machine.cycles.toNat + passed.length :=
  steps.cycles_at room (by simp)

theorem runFor_ok (steps : Steps s passed after) {n : Nat} (bound : passed.length ≤ n)
    (stops : passed.length < n → after.machine.state ≠ .running) : runFor n s = .ok () after := by
  induction steps generalizing n with
  | none s =>
    cases n with
    | zero => rfl
    | succ n => exact runFor_stopped (stops (Nat.succ_pos n)) _
  | more done rest ih =>
    cases n with
    | zero => cases bound
    | succ n =>
      rw [runFor_succ (running_of_done done), done]
      exact ih (Nat.le_of_succ_le_succ bound) fun fewer => stops (Nat.succ_lt_succ fewer)

theorem runFor_error (steps : Steps s passed after) {n : Nat} (bound : passed.length < n)
    (running : after.machine.state = .running) {e : StepError} {last : Session ι ω}
    (failed : step after = .error e last) : runFor n s = .error e last := by
  induction steps generalizing n with
  | none s =>
    cases n with
    | zero => cases bound
    | succ n => rw [runFor_succ running, failed]
  | more done rest ih =>
    cases n with
    | zero => cases bound
    | succ n =>
      rw [runFor_succ (running_of_done done), done]
      exact ih (Nat.lt_of_succ_lt_succ bound) running failed

theorem length_le {others : List (Session ι ω)} {final : Session ι ω} (steps : Steps s passed after)
    (longest : Steps s others final) (ended : ∀ i next, step final ≠ .ok i next) :
    passed.length ≤ others.length := by
  induction steps generalizing others with
  | none => exact Nat.zero_le _
  | more done rest ih =>
    cases longest with
    | none => exact absurd done (ended _ _)
    | more done' rest' =>
      cases done.symm.trans done'
      exact Nat.succ_le_succ (ih rest')

theorem unique {others : List (Session ι ω)} {final : Session ι ω} (steps : Steps s passed after)
    (others_steps : Steps s others final) (length : passed.length = others.length) :
    passed = others ∧ after = final := by
  induction steps generalizing others with
  | none =>
    cases others_steps with
    | none => exact ⟨rfl, rfl⟩
    | more => cases length
  | more done rest ih =>
    cases others_steps with
    | none => cases length
    | more done' rest' =>
      cases done.symm.trans done'
      obtain ⟨rfl, same⟩ := ih rest' (Nat.succ_inj.mp length)
      exact ⟨rfl, same⟩

end Steps

/-- How a run ends that takes at most `n` steps, told by its completed steps. -/
theorem RunEnd.steps {n : Nat} {s : Session ι ω} {r : EStateM.Result StepError (Session ι ω) Unit}
    (ends : RunEnd n s r) :
    ∃ passed after, Steps s passed after ∧ passed.length ≤ n ∧
      ((r = .ok () after ∧ (passed.length < n → after.machine.state ≠ .running)) ∨
        ∃ e last, r = .error e last ∧ passed.length < n ∧ after.machine.state = .running ∧
          step after = .error e last) := by
  induction ends with
  | limited s => exact ⟨[], s, .none s, Nat.le_refl 0, .inl ⟨rfl, nofun⟩⟩
  | @stopped n s stopped => exact ⟨[], s, .none s, Nat.zero_le _, .inl ⟨rfl, fun _ => stopped⟩⟩
  | @failed n s last e running failed =>
    exact ⟨[], s, .none s, Nat.zero_le _, .inr ⟨e, last, rfl, Nat.succ_pos n, running, failed⟩⟩
  | @further n s middle i r running done rest ih =>
    obtain ⟨passed, after, steps, bound, ended⟩ := ih
    refine ⟨s :: passed, after, .more done steps, Nat.succ_le_succ bound, ?_⟩
    rcases ended with ⟨rfl, stops⟩ | ⟨e, last, rfl, fewer, ended⟩
    · exact .inl ⟨rfl, fun fewer => stops (Nat.lt_of_succ_lt_succ fewer)⟩
    · exact .inr ⟨e, last, rfl, Nat.succ_lt_succ fewer, ended⟩

theorem runFor_ok_iff {n : Nat} {s after : Session ι ω} :
    runFor n s = .ok () after ↔ ∃ passed, Steps s passed after ∧ passed.length ≤ n ∧
      (passed.length < n → after.machine.state ≠ .running) := by
  constructor
  · intro ran
    obtain ⟨passed, after', steps, bound, ended⟩ := (runFor_ends n s).steps
    rw [ran] at ended
    rcases ended with ⟨same, stops⟩ | ⟨e, last, same, -⟩
    · cases same
      exact ⟨passed, steps, bound, stops⟩
    · cases same
  · rintro ⟨passed, steps, bound, stops⟩
    exact steps.runFor_ok bound stops

theorem runFor_error_iff {n : Nat} {s last : Session ι ω} {e : StepError} :
    runFor n s = .error e last ↔ ∃ passed after, Steps s passed after ∧ passed.length < n ∧
      after.machine.state = .running ∧ step after = .error e last := by
  constructor
  · intro ran
    obtain ⟨passed, after, steps, bound, ended⟩ := (runFor_ends n s).steps
    rw [ran] at ended
    rcases ended with ⟨same, stops⟩ | ⟨e, last, same, fewer, ended⟩
    · cases same
    · cases same
      exact ⟨passed, after, steps, fewer, ended⟩
  · rintro ⟨passed, after, steps, fewer, running, failed⟩
    exact steps.runFor_error fewer running failed

/-! ### Counted runs -/

theorem Steps.cycles_le {s after : Session ι ω} {passed : List (Session ι ω)}
    (steps : Steps s passed after) (room : passed.length ≤ s.machine.countLeft) :
    s.machine.cycles ≤ after.machine.cycles ∧
      after.machine.cycles.toNat = s.machine.cycles.toNat + passed.length := by
  have full := s.machine.cycles.toNat_lt
  simp only [Machine.countLeft, fullCount] at room
  have count := steps.cycles (by simp only [fullCount]; omega)
  exact ⟨UInt64.le_iff_toNat_le.mpr (by omega), count⟩

theorem Steps.counted {s after : Session ι ω} {passed : List (Session ι ω)}
    (steps : Steps s passed after) (room : passed.length ≤ s.machine.countLeft) :
    (after.machine.cycles - s.machine.cycles).toNat = passed.length := by
  obtain ⟨more, count⟩ := steps.cycles_le room
  rw [UInt64.toNat_sub_of_le _ _ more, count, Nat.add_sub_cancel_left]

theorem runLimited_ok_iff {max k : UInt64} {s after : Session ι ω} :
    runLimited max s = .ok k after ↔ ∃ passed, Steps s passed after ∧
      passed.length ≤ min max.toNat s.machine.countLeft ∧
      (passed.length < min max.toNat s.machine.countLeft → after.machine.state ≠ .running) ∧
      k.toNat = passed.length := by
  rw [runLimited_counted]
  constructor
  · intro ended
    obtain ⟨ran, rfl⟩ := counted_ok ended
    obtain ⟨passed, steps, bound, stops⟩ := runFor_ok_iff.mp ran
    exact ⟨passed, steps, bound, stops, steps.counted (by omega)⟩
  · rintro ⟨passed, steps, bound, stops, count⟩
    have same : k = after.machine.cycles - s.machine.cycles :=
      UInt64.toNat_inj.mp (count.trans (steps.counted (by omega)).symm)
    rw [steps.runFor_ok bound stops, same]
    rfl

theorem runLimited_error_iff {max : UInt64} {e : StepError} {s last : Session ι ω} :
    runLimited max s = .error e last ↔ ∃ passed after, Steps s passed after ∧
      passed.length < min max.toNat s.machine.countLeft ∧ after.machine.state = .running ∧
      step after = .error e last := by
  rw [runLimited_counted, ← runFor_error_iff]
  constructor
  · exact counted_error
  · intro ran
    rw [ran]
    rfl

theorem run_ok_iff {k : UInt64} {s after : Session ι ω} :
    run s = some (.ok k after) ↔ ∃ passed, Steps s passed after ∧
      passed.length ≤ s.machine.countLeft ∧ after.machine.state ≠ .running ∧
      k.toNat = passed.length := by
  rw [run_counted]
  constructor
  · intro ended
    cases ran : runFor s.machine.countLeft s with
    | error e last => simp [ran] at ended
    | ok u last =>
      simp only [ran] at ended
      split at ended
      · obtain ⟨e, final, -, same⟩ := atFullCount_eq_some_iff.mp ended
        cases same
      · rename_i stopped
        cases ended
        obtain ⟨passed, steps, bound, -⟩ := runFor_ok_iff.mp ran
        exact ⟨passed, steps, bound, mt (Machine.isRunning_iff _).mpr stopped,
          steps.counted bound⟩
  · rintro ⟨passed, steps, bound, stopped, count⟩
    have same : k = after.machine.cycles - s.machine.cycles :=
      UInt64.toNat_inj.mp (count.trans (steps.counted bound).symm)
    simp only [steps.runFor_ok bound fun _ => stopped,
      if_neg (mt (Machine.isRunning_iff _).mp stopped), same]
    rfl

theorem run_error_iff {e : StepError} {s last : Session ι ω} :
    run s = some (.error e last) ↔ ∃ passed after, Steps s passed after ∧
      passed.length ≤ s.machine.countLeft ∧ after.machine.state = .running ∧
      step after = .error e last := by
  rw [run_counted]
  constructor
  · intro ended
    cases ran : runFor s.machine.countLeft s with
    | error e last =>
      simp only [ran, Option.some.injEq] at ended
      cases ended
      obtain ⟨passed, after, steps, bound, running, failed⟩ := runFor_error_iff.mp ran
      exact ⟨passed, after, steps, Nat.le_of_lt bound, running, failed⟩
    | ok u after =>
      simp only [ran] at ended
      split at ended
      · rename_i running
        obtain ⟨e, last, failed, same⟩ := atFullCount_eq_some_iff.mp ended
        cases same
        obtain ⟨passed, steps, bound, -⟩ := runFor_ok_iff.mp ran
        exact ⟨passed, after, steps, bound, (Machine.isRunning_iff _).mp running, failed⟩
      · cases ended
  · rintro ⟨passed, after, steps, bound, running, failed⟩
    rcases Nat.lt_or_eq_of_le bound with fewer | full
    · simp only [steps.runFor_error fewer running failed]
    · -- The count is full, and the failing step is the one beyond it.
      simp only [steps.runFor_ok bound fun fewer => absurd full (Nat.ne_of_lt fewer),
        if_pos ((Machine.isRunning_iff _).mpr running)]
      exact atFullCount_eq_some_iff.mpr ⟨e, last, failed, rfl⟩

/-- The steps that a counted run tried: all of them were completed, or the last one failed. -/
inductive Course (s : Session ι ω) :
    List (Session ι ω) → EStateM.Result StepError (Session ι ω) UInt64 → Prop where
  | completed {passed : List (Session ι ω)} {after : Session ι ω} {k : UInt64}
      (steps : Steps s passed after) (room : passed.length ≤ s.machine.countLeft)
      (count : k.toNat = passed.length) : Course s passed (.ok k after)
  | failed {passed : List (Session ι ω)} {after last : Session ι ω} {e : StepError}
      (steps : Steps s passed after) (room : passed.length ≤ s.machine.countLeft)
      (running : after.machine.state = .running) (failed : step after = .error e last) :
      Course s (passed ++ [after]) (.error e last)

theorem Course.unique {s : Session ι ω} {tried others : List (Session ι ω)}
    {r : EStateM.Result StepError (Session ι ω) UInt64} (course : Course s tried r)
    (others_course : Course s others r) : tried = others := by
  cases course with
  | completed steps room count =>
    cases others_course with
    | completed steps' room' count' => exact (steps.unique steps' (count.symm.trans count')).1
  | failed steps room running failed =>
    cases others_course with
    | failed steps' room' running' failed' =>
      -- Neither row of completed steps can be continued, so that they are equally long.
      have shorter := steps.length_le steps' fun _ _ done => nomatch failed'.symm.trans done
      have longer := steps'.length_le steps fun _ _ done => nomatch failed.symm.trans done
      obtain ⟨rfl, rfl⟩ := steps.unique steps' (Nat.le_antisymm shorter longer)
      rfl

theorem runLimited_eq_iff {max : UInt64} {s : Session ι ω}
    {r : EStateM.Result StepError (Session ι ω) UInt64} :
    runLimited max s = r ↔ ∃ tried, Course s tried r ∧
      tried.length ≤ min max.toNat s.machine.countLeft ∧
      (tried.length < min max.toNat s.machine.countLeft → IsFinal r) := by
  constructor
  · intro ran
    cases r with
    | ok k after =>
      obtain ⟨passed, steps, bound, stops, count⟩ := runLimited_ok_iff.mp ran
      exact ⟨passed, .completed steps (by omega) count, bound, stops⟩
    | error e last =>
      obtain ⟨passed, after, steps, bound, running, failed⟩ := runLimited_error_iff.mp ran
      refine ⟨_, .failed steps (by omega) running failed, ?_, fun _ => trivial⟩
      rw [List.length_append]
      exact bound
  · rintro ⟨tried, course, bound, stops⟩
    cases course with
    | completed steps room count => exact runLimited_ok_iff.mpr ⟨tried, steps, bound, stops, count⟩
    | @failed passed after last e steps room running failed =>
      rw [List.length_append] at bound
      exact runLimited_error_iff.mpr ⟨passed, after, steps, bound, running, failed⟩

theorem run_eq_iff {s : Session ι ω} {r : EStateM.Result StepError (Session ι ω) UInt64} :
    run s = some r ↔ ∃ tried, Course s tried r ∧ IsFinal r := by
  constructor
  · intro ran
    cases r with
    | ok k after =>
      obtain ⟨passed, steps, bound, stopped, count⟩ := run_ok_iff.mp ran
      exact ⟨passed, .completed steps bound count, stopped⟩
    | error e last =>
      obtain ⟨passed, after, steps, bound, running, failed⟩ := run_error_iff.mp ran
      exact ⟨_, .failed steps bound running failed, trivial⟩
  · rintro ⟨tried, course, final⟩
    cases course with
    | completed steps room count => exact run_ok_iff.mpr ⟨tried, steps, room, final, count⟩
    | failed steps room running failed =>
      exact run_error_iff.mpr ⟨_, _, steps, room, running, failed⟩

theorem Course.steps {s : Session ι ω} {tried : List (Session ι ω)}
    {r : EStateM.Result StepError (Session ι ω) UInt64} (course : Course s tried r) :
    ∃ passed after, Steps s passed after ∧ passed.length ≤ s.machine.countLeft ∧
      (endState r).machine.cycles = after.machine.cycles := by
  cases course with
  | completed steps room => exact ⟨tried, _, steps, room, rfl⟩
  | failed steps room running failed =>
    exact ⟨_, _, steps, room, (step_failed failed).same.cycles⟩

theorem Course.cycles_le {s : Session ι ω} {tried : List (Session ι ω)}
    {r : EStateM.Result StepError (Session ι ω) UInt64} (course : Course s tried r) :
    s.machine.cycles ≤ (endState r).machine.cycles := by
  obtain ⟨passed, after, steps, room, same⟩ := course.steps
  rw [same]
  exact (steps.cycles_le room).1

theorem Course.raised {s : Session ι ω} {tried : List (Session ι ω)}
    {r : EStateM.Result StepError (Session ι ω) UInt64} (course : Course s tried r) :
    ((endState r).machine.cycles - s.machine.cycles).toNat = match r with
      | .ok _ _ => tried.length
      | .error _ _ => tried.length - 1 := by
  cases course with
  | completed steps room => exact steps.counted room
  | failed steps room running failed =>
    -- The step that failed is tried, but not counted.
    rw [endState, (step_failed failed).same.cycles, steps.counted room]
    simp

theorem Course.raised_le {s : Session ι ω} {tried : List (Session ι ω)}
    {r : EStateM.Result StepError (Session ι ω) UInt64} (course : Course s tried r) :
    ((endState r).machine.cycles - s.machine.cycles).toNat ≤ tried.length := by
  rw [course.raised]
  cases r with
  | ok => exact Nat.le_refl _
  | error => exact Nat.sub_le _ _

/-- A run that comes to an end of its own takes every step that there is. -/
theorem Course.longest {s after : Session ι ω} {tried passed : List (Session ι ω)}
    {r : EStateM.Result StepError (Session ι ω) UInt64} (course : Course s tried r)
    (final : IsFinal r) (steps : Steps s passed after) :
    passed.length ≤ s.machine.countLeft := by
  cases course with
  | completed longest room =>
    have := steps.length_le longest fun _ _ done => final (running_of_done done)
    omega
  | failed longest room running failed =>
    have := steps.length_le longest fun _ _ done => nomatch failed.symm.trans done
    omega

/-! ### What steps keep -/

theorem Steps.kept {P : Session ι ω → Prop} {s after : Session ι ω} {passed : List (Session ι ω)}
    (kept : ∀ {s after i}, P s → step s = .ok i after → P after) (steps : Steps s passed after)
    (start : P s) : (∀ u ∈ passed, P u) ∧ P after := by
  induction steps with
  | none => exact ⟨fun _ mem => absurd mem List.not_mem_nil, start⟩
  | more done rest ih =>
    obtain ⟨all, final⟩ := ih (kept start done)
    exact ⟨List.forall_mem_cons.mpr ⟨start, all⟩, final⟩

theorem Steps.running {s after : Session ι ω} {passed : List (Session ι ω)}
    (steps : Steps s passed after) : ∀ u ∈ passed, u.machine.state = .running := by
  induction steps with
  | none => exact fun _ mem => absurd mem List.not_mem_nil
  | more done rest ih => exact List.forall_mem_cons.mpr ⟨running_of_done done, ih⟩

theorem Course.kept {P : Session ι ω → Prop} {s : Session ι ω} {tried : List (Session ι ω)}
    {r : EStateM.Result StepError (Session ι ω) UInt64}
    (kept : ∀ {s after i}, P s → step s = .ok i after → P after) (course : Course s tried r)
    (start : P s) : ∀ u ∈ tried, P u ∧ u.machine.state = .running := by
  cases course with
  | completed steps room count =>
    intro u mem
    exact ⟨(steps.kept kept start).1 u mem, steps.running u mem⟩
  | failed steps room running failed =>
    obtain ⟨all, final⟩ := steps.kept kept start
    simp only [List.forall_mem_append, List.forall_mem_singleton]
    exact ⟨fun u mem => ⟨all u mem, steps.running u mem⟩, final, running⟩

/-! ### What is written -/

def allWritten (tried : List (Session ι ω)) : String := String.join (tried.map Session.written)

variable {holds : ω → String → Prop} {s after : Session ι ω} {tried : List (Session ι ω)}
  {text : String}

theorem Steps.writes (steps : Steps s tried after) (reliable : Reliable holds)
    (held : holds s.console.output text) :
    holds after.console.output (text ++ allWritten tried) := by
  induction steps generalizing text with
  | none => simpa [allWritten] using held
  | more done rest ih =>
    have first := Session.step_writes reliable held
    rw [done] at first
    simpa [allWritten, String.append_assoc] using ih first

theorem Course.writes {r : EStateM.Result StepError (Session ι ω) UInt64}
    (course : Course s tried r) (reliable : Reliable holds) (held : holds s.console.output text) :
    holds (endState r).console.output (text ++ allWritten tried) := by
  cases course with
  | completed steps => exact steps.writes reliable held
  | failed steps room running failed =>
    have final := Session.step_writes reliable (steps.writes reliable held)
    rw [failed] at final
    simpa [allWritten, endState, String.append_assoc] using final

end DecimalMachine
