import DecimalMachine.Proofs.Runs
import DecimalMachine.Proofs.Saved

/-!
The machines that can come about.

A fresh machine is loaded, poked, stepped, run, saved and restored, in any order. `Reachable.induct`
reduces a property of all these machines to the operations that change a machine in one stroke: runs
are steps, and a restored machine is the saved one.
-/

namespace DecimalMachine

/-- The machines that come from a fresh one. A refused load or write changes nothing. A step that is
completed must still have room in the count. -/
inductive Reachable : Machine → Prop where
  | fresh : Reachable .fresh
  | load {m m' : Machine} (program : List Word) (reachable : Reachable m)
      (loaded : m.loadProgram program = .placed m') : Reachable m'
  | poke {m : Machine} {memory : Memory} (address : UInt64) (w : Word) (reachable : Reachable m)
      (written : m.memory.write address w = .ok memory) : Reachable { m with memory }
  | completed {ι ω : Type} [Source ι] [Sink ω] {before after : Session ι ω} {i : Instruction}
      (reachable : Reachable before.machine) (room : before.machine.cycles.toNat < fullCount)
      (done : step before = .ok i after) : Reachable after.machine
  | failed {ι ω : Type} [Source ι] [Sink ω] {before after : Session ι ω} {e : StepError}
      (reachable : Reachable before.machine) (failed : step before = .error e after) :
      Reachable after.machine
  | run {ι ω : Type} [Source ι] [Sink ω] {before : Session ι ω}
      {r : EStateM.Result StepError (Session ι ω) UInt64} (reachable : Reachable before.machine)
      (ended : run before = some r) : Reachable (endState r).machine
  | runLimited {ι ω : Type} [Source ι] [Sink ω] (before : Session ι ω) (max : UInt64)
      (reachable : Reachable before.machine) : Reachable (endState (runLimited max before)).machine
  | restore {m m' : Machine} (layout : Json.Layout) (reachable : Reachable m)
      (restored : Json.read? (Json.write layout m) = some m') : Reachable m'

/-- A property that steps keep, as long as the count has room. -/
structure KeptBySteps (P : Machine → Prop) : Prop where
  completed : ∀ {ι ω : Type} [Source ι] [Sink ω] {before after : Session ι ω} {i : Instruction},
    P before.machine → before.machine.cycles.toNat < fullCount → step before = .ok i after →
      P after.machine
  failed : ∀ {ι ω : Type} [Source ι] [Sink ω] {before after : Session ι ω} {e : StepError},
    P before.machine → step before = .error e after → P after.machine

namespace KeptBySteps

variable {P : Machine → Prop} {ι ω : Type} [Source ι] [Sink ω]

theorem of_runEnd (kept : KeptBySteps P) {n : Nat} {session : Session ι ω}
    {r : EStateM.Result StepError (Session ι ω) Unit} (ends : RunEnd n session r)
    (start : P session.machine) (room : session.machine.cycles.toNat + n ≤ fullCount) :
    P (endState r).machine := by
  induction ends with
  | limited | stopped => exact start
  | failed n running failed => exact kept.failed start failed
  | further running done rest ih =>
    have counted := step_cycles_toNat done (by omega)
    exact ih (kept.completed start (by omega) done) (by omega)

theorem runLimited (kept : KeptBySteps P) {session : Session ι ω} (start : P session.machine)
    (max : UInt64) : P (endState (runLimited max session)).machine := by
  have room :
      session.machine.cycles.toNat + min max.toNat session.machine.countLeft ≤ fullCount := by
    have := session.machine.cycles.toNat_lt
    simp only [Machine.countLeft, fullCount]
    omega
  have ran := kept.of_runEnd (runFor_ends _ session) start room
  rw [runLimited_counted, endState_counted]
  exact ran

theorem run (kept : KeptBySteps P) {session : Session ι ω}
    {r : EStateM.Result StepError (Session ι ω) UInt64} (start : P session.machine)
    (ended : run session = some r) : P (endState r).machine := by
  rcases (run_eq_some_iff session r).mp ended with
    ⟨limit, room, rfl, final⟩ | ⟨limit, k, after, last, e, full, limited, running, failed, rfl⟩
  · exact kept.runLimited start limit
  · have filled := kept.runLimited start limit
    rw [limited] at filled
    exact kept.failed filled failed

end KeptBySteps

theorem Reachable.induct {P : Machine → Prop} (fresh : P .fresh)
    (loaded : ∀ {m m' : Machine} (program : List Word), P m →
      m.loadProgram program = .placed m' → P m')
    (poked : ∀ {m : Machine} {memory : Memory} (address : UInt64) (w : Word), P m →
      m.memory.write address w = .ok memory → P { m with memory })
    (kept : KeptBySteps P) {m : Machine} (reachable : Reachable m) : P m := by
  induction reachable with
  | fresh => exact fresh
  | load program _ placed ih => exact loaded program ih placed
  | poke address w _ written ih => exact poked address w ih written
  | completed _ room done ih => exact kept.completed ih room done
  | failed _ failed ih => exact kept.failed ih failed
  | run _ ended ih => exact kept.run ih ended
  | runLimited before max _ ih => exact kept.runLimited ih max
  | restore layout _ restored ih =>
    rw [Json.read?_write, Option.some.injEq] at restored
    exact restored ▸ ih

end DecimalMachine
