import DecimalMachine.Proofs.FailedStep

/-!
Limited runs compose, and agree with the run without a limit.

Everything comes from `runFor_add` and from the count: steps that succeed are counted one by one.
The two kinds of run part only where the count is full. A limited run stops there, and the other one
tries one more step, which can only fail.
-/

namespace DecimalMachine

variable {ι ω α : Type}

/-- An end that more steps cannot change: a failure, or a machine that has stopped. -/
def IsFinal : EStateM.Result StepError (Session ι ω) α → Prop
  | .ok _ after => after.machine.state ≠ .running
  | .error _ _ => True

def counted (start : Session ι ω) :
    EStateM.Result StepError (Session ι ω) Unit → EStateM.Result StepError (Session ι ω) UInt64
  | .ok () after => .ok (after.machine.cycles - start.machine.cycles) after
  | .error e after => .error e after

theorem isFinal_counted (start : Session ι ω) (r : EStateM.Result StepError (Session ι ω) Unit) :
    IsFinal (counted start r) ↔ IsFinal r := by
  cases r <;> rfl

theorem endState_counted (start : Session ι ω)
    (r : EStateM.Result StepError (Session ι ω) Unit) :
    endState (counted start r) = endState r := by
  cases r <;> rfl

theorem counted_ok {start after : Session ι ω} {k : UInt64}
    {r : EStateM.Result StepError (Session ι ω) Unit} (ended : counted start r = .ok k after) :
    r = .ok () after ∧ k = after.machine.cycles - start.machine.cycles := by
  cases r with
  | ok u last =>
    cases ended
    exact ⟨rfl, rfl⟩
  | error e last => cases ended

theorem counted_error {start after : Session ι ω} {e : StepError}
    {r : EStateM.Result StepError (Session ι ω) Unit} (ended : counted start r = .error e after) :
    r = .error e after := by
  cases r with
  | ok u last => cases ended
  | error e last =>
    cases ended
    rfl

theorem exists_full_limit (session : Session ι ω) :
    ∃ limit : UInt64, limit.toNat = session.machine.countLeft ∧
      session.machine.cycles.toNat + limit.toNat = fullCount := by
  have below := session.machine.cycles.toNat_lt
  have fits : (UInt64.ofNat session.machine.countLeft).toNat = session.machine.countLeft :=
    UInt64.toNat_ofNat_of_lt' (by simp only [Machine.countLeft, fullCount, UInt64.size]; omega)
  refine ⟨UInt64.ofNat session.machine.countLeft, fits, ?_⟩
  rw [fits]
  simp only [Machine.countLeft, fullCount]
  omega

theorem toNat_add_of_fits {n m : UInt64} (room : n.toNat + m.toNat ≤ fullCount) :
    (n + m).toNat = n.toNat + m.toNat := by
  simp only [fullCount] at room
  rw [UInt64.toNat_add]
  exact Nat.mod_eq_of_lt (by omega)

theorem toNat_add_one {n : UInt64} (room : n.toNat < fullCount) : (n + 1).toNat = n.toNat + 1 :=
  toNat_add_of_fits room

variable [Source ι] [Sink ω]

theorem step_cycles {before after : Session ι ω} {i : Instruction}
    (done : step before = .ok i after) : after.machine.cycles = before.machine.cycles + 1 := by
  obtain ⟨m, c⟩ := before
  have ended := step_cases m c
  rw [done] at ended
  cases ended with
  | completed => exact Machine.commit_cycles _ _

theorem step_cycles_toNat {before after : Session ι ω} {i : Instruction}
    (done : step before = .ok i after) (room : before.machine.cycles.toNat < fullCount) :
    after.machine.cycles.toNat = before.machine.cycles.toNat + 1 := by
  rw [step_cycles done, toNat_add_one room]

theorem runFor_succ {session : Session ι ω} (running : session.machine.state = .running) (n : Nat) :
    runFor (n + 1) session = match step session with
      | .ok _ after => runFor n after
      | .error e after => .error e after := by
  rw [runFor]
  exact if_pos ((Machine.isRunning_iff _).mpr running)

/-- The ways in which a run of at most so many steps can end. Properties of runs are proved by
induction on this. -/
inductive RunEnd : Nat → Session ι ω → EStateM.Result StepError (Session ι ω) Unit → Prop where
  | limited (session : Session ι ω) : RunEnd 0 session (.ok () session)
  | stopped (n : Nat) {session : Session ι ω} (stopped : session.machine.state ≠ .running) :
      RunEnd (n + 1) session (.ok () session)
  | failed (n : Nat) {session after : Session ι ω} {e : StepError}
      (running : session.machine.state = .running) (failed : step session = .error e after) :
      RunEnd (n + 1) session (.error e after)
  | further {n : Nat} {session middle : Session ι ω} {i : Instruction}
      {r : EStateM.Result StepError (Session ι ω) Unit} (running : session.machine.state = .running)
      (done : step session = .ok i middle) (rest : RunEnd n middle r) : RunEnd (n + 1) session r

theorem runFor_ends (n : Nat) (session : Session ι ω) : RunEnd n session (runFor n session) := by
  induction n generalizing session with
  | zero => exact .limited session
  | succ n ih =>
    by_cases running : session.machine.state = .running
    · rw [runFor_succ running]
      cases stepped : step session with
      | ok i middle => exact .further running stepped (ih middle)
      | error e after => exact .failed n running stepped
    · rw [runFor_stopped running]
      exact .stopped n running

theorem runFor_add (n m : Nat) (session : Session ι ω) :
    runFor (n + m) session = match runFor n session with
      | .ok () after => runFor m after
      | .error e after => .error e after := by
  induction n generalizing session with
  | zero => rw [Nat.zero_add]; rfl
  | succ n ih =>
    by_cases running : session.machine.state = .running
    · rw [Nat.add_right_comm, runFor_succ running, runFor_succ running]
      cases step session with
      | ok i after => exact ih after
      | error e after => rfl
    · rw [runFor_stopped running, runFor_stopped running]
      exact (runFor_stopped running m).symm

theorem runFor_final {n m : Nat} {session : Session ι ω} (final : IsFinal (runFor n session))
    (more : n ≤ m) : runFor m session = runFor n session := by
  obtain ⟨rest, rfl⟩ := Nat.exists_eq_add_of_le more
  rw [runFor_add]
  cases ended : runFor n session with
  | error e after => rfl
  | ok u after =>
    rw [ended] at final
    exact runFor_stopped final rest

theorem RunEnd.cycles {n : Nat} {before : Session ι ω}
    {r : EStateM.Result StepError (Session ι ω) Unit} (ends : RunEnd n before r)
    (room : before.machine.cycles.toNat + n ≤ fullCount) {after : Session ι ω}
    (ended : r = .ok () after) :
    ∃ k ≤ n, after.machine.cycles.toNat = before.machine.cycles.toNat + k ∧
      (k < n → after.machine.state ≠ .running) := by
  induction ends with
  | limited session =>
    cases ended
    exact ⟨0, Nat.le_refl 0, rfl, nofun⟩
  | stopped n stopped =>
    cases ended
    exact ⟨0, Nat.zero_le _, rfl, fun _ => stopped⟩
  | failed n running failed => cases ended
  | further running done rest ih =>
    have next := step_cycles_toNat done (by omega)
    obtain ⟨k, bound, count, stops⟩ := ih (by omega) ended
    exact ⟨k + 1, by omega, by omega, fun fewer => stops (by omega)⟩

/-! ### Limited runs -/

theorem runLimited_counted (max : UInt64) (session : Session ι ω) :
    runLimited max session =
      counted session (runFor (min max.toNat session.machine.countLeft) session) := by
  simp only [runLimited]
  cases runFor (min max.toNat session.machine.countLeft) session <;> rfl

theorem runLimited_eq {session : Session ι ω} {max : UInt64}
    (room : session.machine.cycles.toNat + max.toNat ≤ fullCount) :
    runLimited max session = counted session (runFor max.toNat session) := by
  have limit : min max.toNat session.machine.countLeft = max.toNat :=
    Nat.min_eq_left (by unfold Machine.countLeft; omega)
  rw [runLimited_counted, limit]

theorem runLimited_final {session : Session ι ω} {n m : UInt64}
    (final : IsFinal (runLimited n session)) (more : n ≤ m) :
    runLimited m session = runLimited n session := by
  rw [runLimited_counted, isFinal_counted] at final
  have bounds : min n.toNat session.machine.countLeft ≤ min m.toNat session.machine.countLeft := by
    have := UInt64.le_iff_toNat_le.mp more
    omega
  rw [runLimited_counted, runLimited_counted, runFor_final final bounds]

theorem runLimited_ok {before after : Session ι ω} {n k : UInt64}
    (room : before.machine.cycles.toNat + n.toNat ≤ fullCount)
    (ended : runLimited n before = .ok k after) :
    runFor n.toNat before = .ok () after ∧
      k = after.machine.cycles - before.machine.cycles ∧
      after.machine.cycles.toNat = before.machine.cycles.toNat + k.toNat ∧ k ≤ n ∧
      (k < n → after.machine.state ≠ .running) := by
  rw [runLimited_eq room] at ended
  obtain ⟨ran, rfl⟩ := counted_ok ended
  obtain ⟨steps, bound, count, stops⟩ := (runFor_ends n.toNat before).cycles room ran
  have exact_count : (after.machine.cycles - before.machine.cycles).toNat = steps := by
    rw [UInt64.toNat_sub_of_le]
    · omega
    · exact UInt64.le_iff_toNat_le.mpr (by omega)
  refine ⟨ran, rfl, by omega, UInt64.le_iff_toNat_le.mpr (by omega), ?_⟩
  intro fewer
  exact stops (by have := UInt64.lt_iff_toNat_lt.mp fewer; omega)

/-! ### The run without a limit -/

theorem run_counted (session : Session ι ω) :
    run session = match runFor session.machine.countLeft session with
      | .ok () after => if after.machine.isRunning then atFullCount after
          else some (counted session (.ok () after))
      | .error e after => some (.error e after) := rfl

theorem run_of_final {session : Session ι ω} {n : Nat} (room : n ≤ session.machine.countLeft)
    (final : IsFinal (runFor n session)) :
    run session = some (counted session (runFor n session)) := by
  rw [run_counted, runFor_final final room]
  cases ended : runFor n session with
  | error e after => rfl
  | ok u after =>
    rw [ended] at final
    have stopped : after.machine.isRunning = false := by
      simpa [Machine.isRunning, IsFinal] using final
    simp only [stopped]
    rfl

theorem atFullCount_eq_some_iff {session : Session ι ω}
    {r : EStateM.Result StepError (Session ι ω) UInt64} :
    atFullCount session = some r ↔
      ∃ e after, step session = .error e after ∧ r = .error e after := by
  unfold atFullCount
  cases step session with
  | ok i after =>
    constructor
    · nofun
    · rintro ⟨e, last, failed, _⟩
      cases failed
  | error e after =>
    constructor
    · rintro ⟨⟩
      exact ⟨e, after, rfl, rfl⟩
    · rintro ⟨e', last, failed, rfl⟩
      cases failed
      rfl

/-- A run without a limit ends like a limited run that comes to its own end, or fails in the step
after the limited run that fills the count. -/
def RunsTo (session : Session ι ω) (r : EStateM.Result StepError (Session ι ω) UInt64) : Prop :=
  (∃ limit : UInt64, session.machine.cycles.toNat + limit.toNat ≤ fullCount ∧
    runLimited limit session = r ∧ IsFinal r) ∨
  (∃ (limit k : UInt64) (after last : Session ι ω) (e : StepError),
    session.machine.cycles.toNat + limit.toNat = fullCount ∧
    runLimited limit session = .ok k after ∧ after.machine.state = .running ∧
    step after = .error e last ∧ r = .error e last)

theorem run_eq_some_iff (session : Session ι ω)
    (r : EStateM.Result StepError (Session ι ω) UInt64) :
    run session = some r ↔ RunsTo session r := by
  constructor
  · -- The run begins with the limited run that fills the count.
    intro ended
    obtain ⟨limit, left, full⟩ := exists_full_limit session
    have limited := runLimited_eq (Nat.le_of_eq full)
    rw [run_counted, ← left] at ended
    cases ran : runFor limit.toNat session with
    | error e after =>
      simp only [ran, Option.some.injEq] at ended limited
      exact .inl ⟨limit, Nat.le_of_eq full, limited.trans ended, ended ▸ trivial⟩
    | ok u after =>
      simp only [ran] at ended limited
      by_cases running : after.machine.state = .running
      · rw [if_pos ((Machine.isRunning_iff _).mpr running), atFullCount_eq_some_iff] at ended
        obtain ⟨e, last, failed, rfl⟩ := ended
        exact .inr ⟨limit, _, after, last, e, full, limited, running, failed, rfl⟩
      · rw [if_neg (mt (Machine.isRunning_iff _).mp running), Option.some.injEq] at ended
        refine .inl ⟨limit, Nat.le_of_eq full, limited.trans ended, ?_⟩
        rw [← ended]
        exact running
  · rintro (⟨limit, room, rfl, final⟩ |
      ⟨limit, k, after, last, e, full, limited, running, failed, rfl⟩)
    · rw [runLimited_eq room] at final ⊢
      exact run_of_final (by unfold Machine.countLeft; omega) ((isFinal_counted _ _).mp final)
    · obtain ⟨ran, -⟩ := runLimited_ok (Nat.le_of_eq full) limited
      have left : session.machine.countLeft = limit.toNat := by unfold Machine.countLeft; omega
      simp only [run_counted, left, ran, (Machine.isRunning_iff _).mpr running, if_true]
      exact atFullCount_eq_some_iff.mpr ⟨e, last, failed, rfl⟩

theorem runLimited_add {session : Session ι ω} {n m : UInt64}
    (room : session.machine.cycles.toNat + n.toNat + m.toNat ≤ fullCount) :
    runLimited (n + m) session = counted session (match runFor n.toNat session with
      | .ok () after => runFor m.toNat after
      | .error e after => .error e after) := by
  have sum : (n + m).toNat = n.toNat + m.toNat := toNat_add_of_fits (by omega)
  rw [runLimited_eq (by omega), sum, runFor_add]

/-- Limited runs compose, stop early only at a stopped machine, and agree with the run without a
limit up to the point where the count is full. -/
theorem runs_agree (session : Session ι ω) (n m : UInt64)
    (room : session.machine.cycles.toNat + n.toNat + m.toNat ≤ fullCount) :
    (∀ k middle, runLimited n session = .ok k middle →
      (∀ j after, runLimited m middle = .ok j after →
        runLimited (n + m) session = .ok (k + j) after) ∧
      (∀ e after, runLimited m middle = .error e after →
        runLimited (n + m) session = .error e after)) ∧
    (∀ e after, runLimited n session = .error e after →
      runLimited (n + m) session = .error e after) ∧
    (∀ k after, runLimited n session = .ok k after →
      k ≤ n ∧ (k < n → after.machine.state ≠ .running)) ∧
    (∀ r, run session = some r ↔ RunsTo session r) ∧
    (∀ (limit : UInt64) r, session.machine.cycles.toNat + limit.toNat ≤ fullCount →
      runLimited limit session = r → IsFinal r →
        run session = some r ∧ ∀ limit', limit ≤ limit' → runLimited limit' session = r) := by
  have room_first : session.machine.cycles.toNat + n.toNat ≤ fullCount := by omega
  refine ⟨?_, ?_, ?_, run_eq_some_iff session, ?_⟩
  · intro k middle first
    obtain ⟨ran, rfl, count, bound, -⟩ := runLimited_ok room_first first
    have room_second : middle.machine.cycles.toNat + m.toNat ≤ fullCount := by
      have := UInt64.le_iff_toNat_le.mp bound
      omega
    rw [runLimited_eq room_second, runLimited_add room, ran]
    constructor
    · intro j after second
      obtain ⟨ran', rfl⟩ := counted_ok second
      simp only [ran', counted]
      congr 1
      grind
    · intro e after second
      simp only [counted_error second, counted]
  · intro e after first
    rw [runLimited_eq room_first] at first
    rw [runLimited_add room, counted_error first]
    rfl
  · intro k after first
    obtain ⟨-, -, -, bound, stops⟩ := runLimited_ok room_first first
    exact ⟨bound, stops⟩
  · rintro limit r room' rfl final
    exact ⟨(run_eq_some_iff session _).mpr (.inl ⟨limit, room', rfl, final⟩),
      fun limit' more => runLimited_final final more⟩

-- A session that carries out one instruction and then meets a cell that is none.
def shortLived : Session Script Transcript := scripted #[⟨210005, by decide, by decide⟩, .zero] []

theorem runs_agree_shortLived :
    shortLived.machine.cycles.toNat + (1 : UInt64).toNat + (1 : UInt64).toNat ≤ fullCount ∧
    ∃ middle after, runLimited 1 shortLived = .ok 1 middle ∧
      runLimited 1 middle = .error (.fault (.unknownOpcode 0 1)) after ∧
      runLimited (1 + 1) shortLived = .error (.fault (.unknownOpcode 0 1)) after ∧
      run shortLived = some (.error (.fault (.unknownOpcode 0 1)) after) := by
  have room :
      shortLived.machine.cycles.toNat + (1 : UInt64).toNat + (1 : UInt64).toNat ≤ fullCount := by
    decide
  have agree := runs_agree shortLived 1 1 room
  obtain ⟨middle, first⟩ : ∃ middle, runLimited 1 shortLived = .ok 1 middle := ⟨_, by rfl⟩
  obtain ⟨after, whole⟩ : ∃ after,
      runLimited (1 + 1) shortLived = .error (.fault (.unknownOpcode 0 1)) after := ⟨_, by rfl⟩
  refine ⟨room, middle, after, first, ?_, whole, ?_⟩
  · cases second : runLimited 1 middle with
    | ok j last =>
      rw [(agree.1 1 middle first).1 j last second] at whole
      cases whole
    | error e last => rw [← whole, (agree.1 1 middle first).2 e last second]
  · exact (agree.2.2.2.2 (1 + 1) _ room whole trivial).1

-- A session whose count is full, in front of a cell that is no instruction.
def brimful : Session Script Transcript :=
  { scripted #[.zero] [] with
    machine := { (scripted #[.zero] []).machine with cycles := 18446744073709551615 } }

/-- At the full count the run without a limit faults, and no limited run ends of its own. -/
theorem full_count_run_differs :
    (∃ after, run brimful = some (.error (.fault (.unknownOpcode 0 0)) after)) ∧
    ¬ ∃ limit : UInt64, IsFinal (runLimited limit brimful) := by
  refine ⟨⟨_, by rfl⟩, ?_⟩
  rintro ⟨limit, final⟩
  have nothing_left : brimful.machine.countLeft = 0 := by decide
  rw [runLimited_counted, isFinal_counted, nothing_left, Nat.min_zero] at final
  exact final rfl

end DecimalMachine
