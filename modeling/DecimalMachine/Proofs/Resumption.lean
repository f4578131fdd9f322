import DecimalMachine.Proofs.Moments
import DecimalMachine.Proofs.Report

/-!
Runs that broke off at the output, and are taken up again.

An instruction has said everything before it reads or changes anything. So a step that the output
breaks off has only latched its word, and latching it again makes no difference: the run goes on at
another output as if it had been there from the start.
-/

namespace DecimalMachine

variable {ι ω ψ : Type}

/-! ### A step that the output breaks off -/

theorem unread_of_refused [Sink ω] {utterances : List Utterance} {input unread : ι}
    {output output' : ω} {e : IoError}
    (refused : recite (utterances.map (.mk input)) output = .error (e, unread) output') :
    unread = input := by
  induction utterances generalizing output with
  | nil => cases refused
  | cons u rest ih =>
    simp only [List.map_cons, recite] at refused
    split at refused
    · exact ih refused
    · cases refused
      rfl

theorem Machine.latch_latched {m l : Machine} (latched : m.latch = .ok l) : l.latch = .ok l := by
  obtain ⟨running, w, fetched, rfl⟩ := latch_eq_ok latched
  exact latch_of_read running fetched

variable [Source ι] [Sink ω] [Sink ψ]

/-- The output refuses, with this failure, something that the instruction at the counter says. -/
def Session.RefusedWith (s : Session ι ω) (e : IoError) : Prop :=
  ∃ l unread output, s.machine.latch = .ok l ∧
    recite (l.moments s.console.input) s.console.output = .error (e, unread) output

theorem step_at_output {s : Session ι ω} {l : Machine} (latched : s.machine.latch = .ok l) :
    ∃ journal, step s = match recite (l.moments s.console.input) s.console.output with
      | .ok () output => l.ended ⟨(l.reply s.console.input).input, output, journal⟩
          (l.reply s.console.input).settled
      | .error (e, unread) output => .error (.io e) ⟨l, ⟨unread, output, journal⟩⟩ := by
  obtain ⟨m, input, output, journal⟩ := s
  obtain ⟨journal', performed⟩ := (l.perform_tells input).at_output output journal
  refine ⟨journal', ?_⟩
  simp only [step, latched, performed, outcomeAt]
  cases recite (l.moments input) output with
  | ok u output' => rcases (l.reply input).settled with e | fault | change <;> rfl
  | error e output' => rfl

theorem step_refused {s : Session ι ω} {e : IoError} (refused : s.RefusedWith e) :
    ∃ l output journal, s.machine.latch = .ok l ∧
      step s = .error (.io e) ⟨l, ⟨s.console.input, output, journal⟩⟩ := by
  obtain ⟨l, unread, output, latched, broken⟩ := refused
  obtain ⟨journal, stepped⟩ := step_at_output latched
  rw [broken] at stepped
  cases unread_of_refused broken
  exact ⟨l, output, journal, latched, stepped⟩

/-- The same machine at the same input. The outputs may be of any kind. -/
structure Session.Agrees (s : Session ι ω) (t : Session ι ψ) : Prop where
  machine : s.machine = t.machine
  input : s.console.input = t.console.input

variable {holds : ψ → String → Prop} {text : String}

theorem step_done_reliably (reliable : Reliable holds) {s after : Session ι ω} {t : Session ι ψ}
    (agrees : s.Agrees t) (held : holds t.console.output text) {i : Instruction}
    (done : step s = .ok i after) :
    ∃ after', step t = .ok i after' ∧ after.Agrees after' ∧
      ∃ text', holds after'.console.output text' := by
  cases latched : s.machine.latch with
  | error e => cases (Session.step_of_unlatched latched).symm.trans done
  | ok l =>
    obtain ⟨journal, stepped⟩ := step_at_output latched
    obtain ⟨console, input, held', stepped'⟩ :=
      Session.step_of_latched reliable held (agrees.machine ▸ latched)
    rw [← agrees.input] at input held' stepped'
    rw [done] at stepped
    split at stepped
    · generalize (l.reply s.console.input).settled = settled at stepped stepped'
      rcases settled with e | fault | change
      · cases stepped
      · cases stepped
      · cases stepped
        exact ⟨_, stepped', ⟨rfl, input.symm⟩, _, held'⟩
    · cases stepped

theorem Steps.reliably (reliable : Reliable holds) {s after : Session ι ω} {t : Session ι ψ}
    {passed : List (Session ι ω)} (steps : Steps s passed after) (agrees : s.Agrees t)
    (held : holds t.console.output text) :
    ∃ passed' after', Steps t passed' after' ∧ passed'.length = passed.length ∧
      after.Agrees after' ∧ ∃ text', holds after'.console.output text' := by
  induction steps generalizing t text with
  | none => exact ⟨[], t, .none t, rfl, agrees, text, held⟩
  | more done rest ih =>
    obtain ⟨middle', done', agrees', text₁, held₁⟩ :=
      step_done_reliably reliable agrees held done
    obtain ⟨passed', after', steps', length, agrees', heard⟩ := ih agrees' held₁
    exact ⟨t :: passed', after', .more done' steps', congrArg Nat.succ length, agrees', heard⟩

/-! ### A step that is taken again -/

theorem step_of_same_latch (reliable : Reliable holds) {s t : Session ι ψ} {l : Machine}
    (latched : s.machine.latch = .ok l) (latched' : t.machine.latch = .ok l)
    (input : s.console.input = t.console.input) {text' : String}
    (held : holds s.console.output text) (held' : holds t.console.output text') :
    Alike (Session.Beside Eq holds holds) (step s) (step t) := by
  obtain ⟨c, c', same, heard, heard', stepped, stepped'⟩ :=
    Session.step_replied reliable reliable held held' latched latched' input rfl
  rw [stepped, stepped']
  rcases (l.reply s.console.input).settled with e | fault | change
  · exact .error ⟨rfl, same, heard, heard'⟩
  · exact .error ⟨rfl, same, heard, heard'⟩
  · exact .ok ⟨rfl, same, heard, heard'⟩

theorem Lockstep.runFor {R : Session ι ω → Session ι ψ → Prop} (lock : Lockstep R)
    {s : Session ι ω} {t : Session ι ψ} (related : R s t) (n : Nat) :
    Alike R (DecimalMachine.runFor n s) (DecimalMachine.runFor n t) := by
  induction n generalizing s t with
  | zero => exact .ok related
  | succ n ih =>
    by_cases running : s.machine.state = .running
    · rw [runFor_succ running, runFor_succ (lock.state related ▸ running)]
      have alike := lock.step related
      generalize DecimalMachine.step s = r at alike
      generalize DecimalMachine.step t = r' at alike
      cases alike with
      | ok related => exact ih related
      | error related => exact .error related
    · rw [runFor_stopped running, runFor_stopped (lock.state related ▸ running)]
      exact .ok related

/-! ### A run that is taken up again -/

def uncounted : EStateM.Result StepError (Session ι ω) UInt64 →
    EStateM.Result StepError (Session ι ω) Unit
  | .ok _ after => .ok () after
  | .error e after => .error e after

omit [Source ι] [Sink ω] in
theorem uncounted_counted (s : Session ι ω) (r : EStateM.Result StepError (Session ι ω) Unit) :
    uncounted (counted s r) = r := by
  cases r <;> rfl

def afterFull : EStateM.Result StepError (Session ι ω) Unit →
    Option (EStateM.Result StepError (Session ι ω) Unit)
  | .ok () last => if last.machine.isRunning then (atFullCount last).map uncounted
      else some (.ok () last)
  | .error e last => some (.error e last)

theorem run_uncounted (s : Session ι ω) :
    (run s).map uncounted = afterFull (runFor s.machine.countLeft s) := by
  rw [run_counted]
  cases runFor s.machine.countLeft s with
  | error e last => rfl
  | ok u last =>
    simp only [afterFull]
    split <;> rfl

theorem runFor_after_steps {s after : Session ι ω} {passed : List (Session ι ω)}
    (steps : Steps s passed after) (n : Nat) : runFor (passed.length + n) s = runFor n after := by
  induction steps with
  | none s => rw [List.length_nil, Nat.zero_add]
  | more done rest ih =>
    rw [List.length_cons, Nat.add_right_comm, runFor_succ (running_of_done done), done]
    exact ih

theorem run_after_steps {s after : Session ι ω} {passed : List (Session ι ω)}
    (steps : Steps s passed after) (room : passed.length ≤ s.machine.countLeft) :
    (run s).map uncounted = (run after).map uncounted := by
  have count := (steps.cycles_le room).2
  have left : s.machine.countLeft = passed.length + after.machine.countLeft := by
    simp only [Machine.countLeft] at room ⊢
    omega
  rw [run_uncounted, run_uncounted, left, runFor_after_steps steps]

/-- The last step that the run tried was broken off by the output. -/
def BrokenOff (s : Session ι ω) (e : IoError) (last : Session ι ω) : Prop :=
  ∃ tried stuck, Course s tried (.error (.io e) last) ∧ tried.getLast? = some stuck ∧
    stuck.RefusedWith e

/-- Where a run stands that the output broke off, told by the steps from the same start at an output
that never fails. -/
structure StandsAt (s last : Session ι ω) (t : Session ι ψ) (passed : List (Session ι ψ))
    (after : Session ι ψ) : Prop where
  steps : Steps t passed after
  count : passed.length = (last.machine.cycles - s.machine.cycles).toNat
  running : last.machine.state = .running
  machine : last.machine = after.machine.withInstruction last.machine.registers.instruction
  input : last.console.input = after.console.input

theorem BrokenOff.stands (reliable : Reliable holds) {s last : Session ι ω} {e : IoError}
    (broken : BrokenOff s e last) {t : Session ι ψ} (agrees : s.Agrees t)
    (held : holds t.console.output text) :
    ∃ passed after, StandsAt s last t passed after ∧ passed.length ≤ t.machine.countLeft ∧
      after.machine.latch = .ok last.machine ∧ ∃ text', holds after.console.output text' := by
  obtain ⟨tried, stuck, course, final, refused⟩ := broken
  cases course with
  | @failed done stuck' _ _ steps room running failed =>
    simp only [List.getLast?_append, List.getLast?_singleton, Option.some_or,
      Option.some.injEq] at final
    subst final
    obtain ⟨l, output, journal, latched, stepped⟩ := step_refused refused
    cases failed.symm.trans stepped
    obtain ⟨passed, after, steps', length, agrees', heard⟩ := steps.reliably reliable agrees held
    obtain ⟨-, w, fetched, rfl⟩ := Machine.latch_eq_ok latched
    have count : passed.length =
        ((stuck'.machine.withInstruction w).cycles - s.machine.cycles).toNat :=
      length.trans (steps.counted room).symm
    refine ⟨passed, after, ⟨steps', count, running, ?_, agrees'.input⟩, ?_, ?_, heard⟩
    · rw [agrees'.machine]
      rfl
    · rw [length, ← agrees.machine]
      exact room
    · rw [← agrees'.machine]
      exact latched

theorem runFor_relatched (reliable : Reliable holds) {s t : Session ι ψ} {l : Machine}
    (latched : s.machine.latch = .ok l) (latched' : t.machine.latch = .ok l)
    (input : s.console.input = t.console.input) {text' : String}
    (held : holds s.console.output text) (held' : holds t.console.output text') (n : Nat) :
    Alike (Session.Beside Eq holds holds) (runFor (n + 1) s) (runFor (n + 1) t) := by
  have alike := step_of_same_latch reliable latched latched' input held held'
  rw [runFor_succ (Machine.latch_eq_ok latched).1, runFor_succ (Machine.latch_eq_ok latched').1]
  generalize step s = r at alike
  generalize step t = r' at alike
  cases alike with
  | ok related => exact (Machine.parallel_eq.lockstep reliable reliable).runFor related n
  | error related => exact .error related

theorem atFullCount_alike {R : Session ι ω → Session ι ψ → Prop} {s : Session ι ω}
    {t : Session ι ψ} (alike : Alike R (step s) (step t)) :
    Option.Rel (Alike R) ((atFullCount s).map uncounted) ((atFullCount t).map uncounted) := by
  unfold atFullCount
  generalize step s = r at alike
  generalize step t = r' at alike
  cases alike with
  | ok related => exact .none
  | error related => exact .some (.error related)

theorem Lockstep.afterFull {R : Session ι ω → Session ι ψ → Prop} (lock : Lockstep R)
    {r : EStateM.Result StepError (Session ι ω) Unit}
    {r' : EStateM.Result StepError (Session ι ψ) Unit} (alike : Alike R r r') :
    Option.Rel (Alike R) (DecimalMachine.afterFull r) (DecimalMachine.afterFull r') := by
  cases alike with
  | @ok _ last last' related =>
    have same : last.machine.isRunning = last'.machine.isRunning := by
      rw [Machine.isRunning, Machine.isRunning, lock.state related]
    rw [DecimalMachine.afterFull, DecimalMachine.afterFull, same]
    by_cases running : last'.machine.isRunning
    · rw [if_pos running, if_pos running]
      exact atFullCount_alike (lock.step related)
    · rw [if_neg running, if_neg running]
      exact .some (.ok related)
  | error related => exact .some (.error related)

theorem run_relatched (reliable : Reliable holds) {s t : Session ι ψ} {l : Machine}
    (latched : s.machine.latch = .ok l) (latched' : t.machine.latch = .ok l)
    (input : s.console.input = t.console.input) {text' : String}
    (held : holds s.console.output text) (held' : holds t.console.output text')
    (cycles : s.machine.cycles = t.machine.cycles) :
    Option.Rel (Alike (Session.Beside Eq holds holds)) ((run s).map uncounted)
      ((run t).map uncounted) := by
  have left : t.machine.countLeft = s.machine.countLeft := by
    rw [Machine.countLeft, Machine.countLeft, cycles]
  rw [run_uncounted, run_uncounted, left]
  cases s.machine.countLeft with
  | zero =>
    have running := (Machine.isRunning_iff _).mpr (Machine.latch_eq_ok latched).1
    have running' := (Machine.isRunning_iff _).mpr (Machine.latch_eq_ok latched').1
    simp only [runFor, pure, EStateM.pure, afterFull, running, running', if_true]
    exact atFullCount_alike (step_of_same_latch reliable latched latched' input held held')
  | succ n =>
    exact (Machine.parallel_eq.lockstep reliable reliable).afterFull
      (runFor_relatched reliable latched latched' input held held' n)

theorem runLimited_uncounted (n : UInt64) (s : Session ι ω) :
    uncounted (runLimited n s) = runFor (min n.toNat s.machine.countLeft) s := by
  rw [runLimited_counted, uncounted_counted]

omit [Sink ω] [Sink ψ] [Source ι] in
theorem Session.agrees_of_beside {holds : ω → String → Prop} {holds' : ψ → String → Prop}
    (s : Session ι ω) (t : Session ι ψ) (beside : s.Beside Eq holds holds' t) : s.Agrees t :=
  ⟨beside.machine, beside.input⟩

/-- A run that the output broke off stands between two steps, but for the latched word. Taken up
again at an output that never fails, it ends as the run from the start does at such an output:
without a limit, or with what is left of one. -/
theorem resumption_exact (reliable : Reliable holds) {s last : Session ι ω} {e : IoError}
    (broken : BrokenOff s e last) {t u : Session ι ψ} {text' : String} (start : s.Agrees t)
    (held : holds t.console.output text) (resumed : last.Agrees u)
    (held' : holds u.console.output text') :
    run s = some (.error (.io e) last) ∧
    (∃ passed after, StandsAt s last t passed after) ∧
    Option.Rel (Alike Session.Agrees) ((run t).map uncounted) ((run u).map uncounted) ∧
    ∀ n, runLimited n s = .error (.io e) last →
      Alike Session.Agrees (uncounted (runLimited n t))
        (uncounted (runLimited (n - (last.machine.cycles - s.machine.cycles)) u)) := by
  obtain ⟨passed, after, stands, room, latched, told, heard⟩ := broken.stands reliable start held
  have ran : run s = some (.error (.io e) last) := by
    obtain ⟨tried, -, course, -⟩ := broken
    exact run_eq_iff.mpr ⟨tried, course, trivial⟩
  have latched' : u.machine.latch = .ok last.machine := by
    rw [← resumed.machine]
    exact Machine.latch_latched latched
  have input : after.console.input = u.console.input := stands.input.symm.trans resumed.input
  have cycles : after.machine.cycles = u.machine.cycles := by
    rw [← resumed.machine, stands.machine]
    rfl
  refine ⟨ran, ⟨passed, after, stands⟩, ?_, ?_⟩
  · rw [run_after_steps stands.steps room]
    have alike := run_relatched reliable latched latched' input heard held' cycles
    generalize (run after).map uncounted = r at alike
    generalize (run u).map uncounted = r' at alike
    cases alike with
    | none => exact .none
    | some alike => exact .some (alike.mono Session.agrees_of_beside)
  · intro n limited
    -- The limit and the count both had room for the step that was broken off.
    obtain ⟨done, stuck, steps, bound, -, failed⟩ := runLimited_error_iff.mp limited
    have length : done.length = passed.length := by
      rw [stands.count, (step_failed failed).same.cycles, steps.counted (by omega)]
    have left : (n - (last.machine.cycles - s.machine.cycles)).toNat = n.toNat - passed.length := by
      rw [UInt64.toNat_sub_of_le, ← stands.count]
      rw [UInt64.le_iff_toNat_le, ← stands.count]
      omega
    have count := (stands.steps.cycles_le room).2
    rw [start.machine] at bound
    obtain ⟨more, whole⟩ : ∃ more, min n.toNat t.machine.countLeft = passed.length + (more + 1) :=
      ⟨min n.toNat t.machine.countLeft - passed.length - 1, by omega⟩
    have rest : min (n.toNat - passed.length) u.machine.countLeft = more + 1 := by
      simp only [Machine.countLeft, ← cycles] at whole ⊢
      omega
    rw [runLimited_uncounted, runLimited_uncounted, left, rest, whole,
      runFor_after_steps stands.steps]
    exact (runFor_relatched reliable latched latched' input heard held' more).mono
      Session.agrees_of_beside

-- A session whose output closes behind its first line, in front of the prompt of a `READ`.
def cutShort : Session Script Transcript :=
  let start := scripted #[⟨110003, by decide, by decide⟩, ⟨100003, by decide, by decide⟩,
    ⟨450000, by decide, by decide⟩, .zero] [7, 8]
  { start with console := { start.console with output := { limit := some 1 } } }

def brokenOff : Session Script Transcript := endState (step (endState (step cutShort)))

theorem resumption_exact_cutShort :
    run cutShort = some (.error (.io .outputClosed) brokenOff) ∧
    brokenOff.console.input.values = [7, 8] ∧
    ∃ after, run brokenOff.alone = some (.ok 2 after) ∧ after.machine.state = .halted 0 0 ∧
      after.console.input.values = [8] ∧
      Option.Rel (Alike Session.Agrees) ((run cutShort.alone).map uncounted)
        (some (.ok () after)) := by
  have done : step cutShort = .ok ⟨.write, 3⟩ (endState (step cutShort)) := by rfl
  have failed : step (endState (step cutShort)) = .error (.io .outputClosed) brokenOff := by rfl
  have refused : (endState (step cutShort)).RefusedWith .outputClosed :=
    ⟨_, _, _, by rfl, by rfl⟩
  have broken : BrokenOff cutShort .outputClosed brokenOff :=
    ⟨_, _, .failed (.more done (.none _)) (by decide) (by rfl) failed, rfl, refused⟩
  have held : Transcript.Holds {} "" := ⟨rfl, rfl⟩
  have exact := resumption_exact Transcript.reliable broken
    (t := cutShort.alone) (u := brokenOff.alone) ⟨rfl, rfl⟩ held ⟨rfl, rfl⟩ held
  obtain ⟨after, resumed, halted, unread⟩ : ∃ after, run brokenOff.alone = some (.ok 2 after) ∧
      after.machine.state = .halted 0 0 ∧ after.console.input.values = [8] :=
    ⟨_, by rfl, by rfl, by rfl⟩
  have alike := exact.2.2.1
  rw [resumed] at alike
  exact ⟨exact.1, by rfl, after, resumed, halted, unread, alike⟩

end DecimalMachine
