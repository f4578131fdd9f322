import DecimalMachine.Proofs.Steps

/-!
The limit of a run, up to the largest count.

A limited run goes on while its count is below a limit, which is the sum of the count at its start
and of what is allowed, or the largest count if the sum is beyond it. `runBelow` is this loop, and
`runBelow_eq` says how many steps that makes. No step is tried at the largest count, so that the
count of a limited run does not wrap; and the counter of a machine that has fetched a word is inside
memory, so that it does not wrap either.
-/

namespace DecimalMachine

/-- The sum of two counts, or the largest count if the sum is beyond it. -/
def saturatingSum (a b : UInt64) : UInt64 := UInt64.ofNat (min (a.toNat + b.toNat) fullCount)

theorem toNat_saturatingSum (a b : UInt64) :
    (saturatingSum a b).toNat = min (a.toNat + b.toNat) fullCount :=
  UInt64.toNat_ofNat_of_lt' (by simp only [fullCount, UInt64.size]; omega)

theorem room_of_below {n limit : UInt64} (below : n < limit) : n.toNat < fullCount := by
  have less := UInt64.lt_iff_toNat_lt.mp below
  have bound := limit.toNat_lt
  simp only [fullCount]
  omega

variable {ι ω : Type} [Source ι] [Sink ω]

/-- Steps as long as the machine is running and its count is below the limit. -/
def runBelow (limit : UInt64) (s : Session ι ω) : EStateM.Result StepError (Session ι ω) Unit :=
  if _ : s.machine.isRunning ∧ s.machine.cycles < limit then
    match _ : step s with
    | .ok _ after => runBelow limit after
    | .error e after => .error e after
  else .ok () s
termination_by limit.toNat - s.machine.cycles.toNat
decreasing_by
  rename_i going i done
  have less := UInt64.lt_iff_toNat_lt.mp going.2
  have next := step_cycles_toNat done (room_of_below going.2)
  omega

theorem runBelow_eq (limit : UInt64) (s : Session ι ω) :
    runBelow limit s = runFor (limit.toNat - s.machine.cycles.toNat) s := by
  -- By induction on what the limit leaves, which a completed step lowers by one.
  generalize left : limit.toNat - s.machine.cycles.toNat = n
  induction n generalizing s with
  | zero =>
    have full : ¬ (s.machine.isRunning ∧ s.machine.cycles < limit) := by
      rw [UInt64.lt_iff_toNat_lt]
      omega
    rw [runBelow, dif_neg full]
    rfl
  | succ n ih =>
    have below : s.machine.cycles < limit := by
      rw [UInt64.lt_iff_toNat_lt]
      omega
    by_cases running : s.machine.state = .running
    · have going := And.intro ((Machine.isRunning_iff s.machine).mpr running) below
      rw [runBelow, dif_pos going, runFor_succ running]
      split
      · rename_i i after done
        have next := step_cycles_toNat done (room_of_below below)
        rw [done]
        exact ih after (by omega)
      · rename_i e after failed
        rw [failed]
    · have stopped := mt (Machine.isRunning_iff s.machine).mp running
      rw [runBelow, dif_neg fun going => stopped going.1, runFor_stopped running]

theorem runLimited_eq_runBelow (max : UInt64) (s : Session ι ω) :
    runLimited max s = counted s (runBelow (saturatingSum s.machine.cycles max) s) := by
  have left : (saturatingSum s.machine.cycles max).toNat - s.machine.cycles.toNat =
      min max.toNat s.machine.countLeft := by
    rw [toNat_saturatingSum, Machine.countLeft]
    omega
  rw [runLimited_counted, runBelow_eq, left]

/-! ### The steps of a limited run -/

theorem step_size {s after : Session ι ω} {i : Instruction} (done : step s = .ok i after) :
    after.machine.memory.cells.size = s.machine.memory.cells.size := by
  obtain ⟨m, c⟩ := s
  have ended := step_cases m c
  rw [done] at ended
  cases ended with
  | completed => exact Machine.commit_size _ _

variable {s t : Session ι ω} {tried : List (Session ι ω)} {k : Nat}

theorem Course.cycles_at {r : EStateM.Result StepError (Session ι ω) UInt64}
    (course : Course s tried r) (here : tried[k]? = some t) :
    t.machine.cycles.toNat = s.machine.cycles.toNat + k := by
  have bound := s.machine.cycles.toNat_lt
  cases course with
  | completed steps room count =>
    obtain ⟨inside, -⟩ := List.getElem?_eq_some_iff.mp here
    simp only [Machine.countLeft, fullCount] at room
    apply steps.cycles_at (by simp only [fullCount]; omega)
    rw [List.getElem?_append_left inside, here]
  | failed steps room running failed =>
    simp only [Machine.countLeft, fullCount] at room
    exact steps.cycles_at (by simp only [fullCount]; omega) here

theorem Course.latched {r : EStateM.Result StepError (Session ι ω) UInt64}
    (course : Course s tried r) (mem : t ∈ tried) {latched : Machine}
    (fetched : t.machine.latch = .ok latched) : latched.cycles = t.machine.cycles ∧
      latched.registers.counter.toNat < s.machine.memory.cells.size := by
  obtain ⟨running, w, read, rfl⟩ := Machine.latch_eq_ok fetched
  obtain ⟨inside, -⟩ := Array.getElem?_eq_some_iff.mp (Memory.read_eq_ok_iff.mp read)
  have size := (course.kept (P := fun u => u.machine.memory.cells.size =
    s.machine.memory.cells.size) (fun same done => (step_size done).trans same) rfl t mem).1
  exact ⟨rfl, size ▸ inside⟩

/-- A limited run is the loop below the saturating sum, and nothing that it adds up or subtracts
leaves 64 bits. It tries a step only below that limit, so that the next count is exact, in the log
of a `HALT` and at the end of the step; and so is the next location once a word was fetched, of as
many cells as can be counted. The count never decreases, and a run whose machine is running at the
end has taken all the steps that were allowed, or has filled the count. -/
theorem limited_run_never_wraps (max : UInt64) (s : Session ι ω) :
    runLimited max s = counted s (runBelow (saturatingSum s.machine.cycles max) s) ∧
    (∃ tried, Course s tried (runLimited max s) ∧ ∀ k t, tried[k]? = some t →
      t.machine.cycles.toNat = s.machine.cycles.toNat + k ∧
      t.machine.cycles < saturatingSum s.machine.cycles max ∧
      ∀ latched, t.machine.latch = .ok latched →
        (latched.cycles + 1).toNat = t.machine.cycles.toNat + 1 ∧
        (s.machine.memory.cells.size ≤ fullCount →
          (latched.registers.counter + 1).toNat = latched.registers.counter.toNat + 1)) ∧
    s.machine.cycles ≤ (endState (runLimited max s)).machine.cycles ∧
    ∀ k after, runLimited max s = .ok k after →
      after.machine.cycles.toNat = s.machine.cycles.toNat + k.toNat ∧
      (after.machine.state = .running →
        k.toNat = min max.toNat (fullCount - s.machine.cycles.toNat)) := by
  obtain ⟨tried, course, bound, -⟩ := runLimited_eq_iff.mp (rfl : runLimited max s = _)
  refine ⟨runLimited_eq_runBelow max s, ⟨tried, course, ?_⟩, course.cycles_le, ?_⟩
  · intro k t here
    obtain ⟨inside, -⟩ := List.getElem?_eq_some_iff.mp here
    have count := course.cycles_at here
    have below : t.machine.cycles < saturatingSum s.machine.cycles max := by
      rw [UInt64.lt_iff_toNat_lt, toNat_saturatingSum]
      simp only [Machine.countLeft] at bound
      omega
    refine ⟨count, below, ?_⟩
    intro latched fetched
    obtain ⟨same, cell⟩ := course.latched (List.mem_of_getElem? here) fetched
    constructor
    · rw [same, toNat_add_one (room_of_below below)]
    · intro size
      exact toNat_add_one (Nat.lt_of_lt_of_le cell size)
  · intro k after ended
    obtain ⟨passed, steps, fits, stops, length⟩ := runLimited_ok_iff.mp ended
    have count := (steps.cycles_le (by omega)).2
    rw [length]
    refine ⟨count, ?_⟩
    intro running
    have all : ¬ passed.length < min max.toNat s.machine.countLeft :=
      fun fewer => stops fewer running
    exact Nat.le_antisymm fits (Nat.le_of_not_lt all)

-- A session in a loop of one instruction, with two counts left.
def nearlyFull : Session Script Transcript :=
  { programmed [400000] [] with
    machine := { (programmed [400000] []).machine with cycles := 18446744073709551613 } }

theorem limited_run_never_wraps_nearlyFull :
    ∃ after, runLimited 5 nearlyFull = .ok 2 after ∧ after.machine.state = .running ∧
      (2 : UInt64).toNat = min (5 : UInt64).toNat (fullCount - nearlyFull.machine.cycles.toNat) ∧
      after.machine.cycles.toNat = fullCount ∧
      nearlyFull.machine.memory.cells.size ≤ fullCount ∧
      ∃ tried, Course nearlyFull tried (.ok 2 after) ∧ ∀ t ∈ tried, ∀ latched,
        t.machine.latch = .ok latched →
          (latched.cycles + 1).toNat = t.machine.cycles.toNat + 1 ∧
          (latched.registers.counter + 1).toNat = latched.registers.counter.toNat + 1 := by
  obtain ⟨after, ended, running⟩ :
      ∃ after, runLimited 5 nearlyFull = .ok 2 after ∧ after.machine.state = .running :=
    ⟨_, by rfl, by rfl⟩
  have size : nearlyFull.machine.memory.cells.size ≤ fullCount := by decide
  obtain ⟨-, ⟨tried, course, adds⟩, -, counts⟩ := limited_run_never_wraps 5 nearlyFull
  obtain ⟨count, all⟩ := counts 2 after ended
  rw [ended] at course
  refine ⟨after, ended, running, all running, count, size, tried, course, ?_⟩
  intro t mem latched fetched
  obtain ⟨k, here⟩ := List.mem_iff_getElem?.mp mem
  obtain ⟨next, location⟩ := (adds k t here).2.2 latched fetched
  exact ⟨next, location size⟩

end DecimalMachine
