import Mathlib.Data.List.Forall2
import DecimalMachine.Proofs.Steps

/-!
Two runs in lockstep.

A relation between sessions that every pair of steps keeps is kept by runs: they try related steps,
return the same, and end in related sessions.
-/

namespace DecimalMachine

/-- The same value or the same failure, with related states. -/
inductive Alike {ε σ τ α : Type} (R : σ → τ → Prop) :
    EStateM.Result ε σ α → EStateM.Result ε τ α → Prop where
  | ok {a : α} {s : σ} {t : τ} (related : R s t) : Alike R (.ok a s) (.ok a t)
  | error {e : ε} {s : σ} {t : τ} (related : R s t) : Alike R (.error e s) (.error e t)

theorem Alike.mono {ε σ τ α : Type} {R S : σ → τ → Prop} {r : EStateM.Result ε σ α}
    {r' : EStateM.Result ε τ α} (alike : Alike R r r') (weaker : ∀ s t, R s t → S s t) :
    Alike S r r' := by
  cases alike with
  | ok related => exact .ok (weaker _ _ related)
  | error related => exact .error (weaker _ _ related)

theorem Alike.related {ε σ τ α : Type} {R : σ → τ → Prop} {r : EStateM.Result ε σ α}
    {r' : EStateM.Result ε τ α} (alike : Alike R r r') : R (endState r) (endState r') := by
  cases alike <;> assumption

theorem Alike.mono_rel {ε σ τ α : Type} {R S : σ → τ → Prop} {r : Option (EStateM.Result ε σ α)}
    {r' : Option (EStateM.Result ε τ α)} (alike : Option.Rel (Alike R) r r')
    (weaker : ∀ s t, R s t → S s t) : Option.Rel (Alike S) r r' := by
  cases alike with
  | some alike => exact .some (alike.mono weaker)
  | none => exact .none

theorem Alike.isFinal {ι ω ψ α : Type} {R : Session ι ω → Session ι ψ → Prop}
    {r : EStateM.Result StepError (Session ι ω) α} {r' : EStateM.Result StepError (Session ι ψ) α}
    (alike : Alike R r r') (state : ∀ {s t}, R s t → s.machine.state = t.machine.state) :
    IsFinal r ↔ IsFinal r' := by
  cases alike with
  | ok related => simp only [IsFinal, state related]
  | error => exact Iff.rfl

variable {ι ω ψ : Type} [Source ι] [Sink ω] [Sink ψ]

omit [Sink ω] [Sink ψ] in
theorem allWritten_congr {tried : List (Session ι ω)} {tried' : List (Session ι ψ)}
    (all : List.Forall₂ (fun u u' => u.written = u'.written) tried tried') :
    allWritten tried = allWritten tried' := by
  induction all with
  | nil => rfl
  | cons same _ ih =>
    simp only [allWritten, List.map_cons, String.join_cons] at ih ⊢
    rw [same, ih]

/-- Related sessions run or have stopped together, and a step of each keeps them related. -/
structure Lockstep (R : Session ι ω → Session ι ψ → Prop) : Prop where
  state : ∀ {s t}, R s t → s.machine.state = t.machine.state
  step : ∀ {s t}, R s t → Alike R (step s) (step t)

/-- Two runs that tried related steps and came to related ends. -/
def Abreast (R : Session ι ω → Session ι ψ → Prop) (s : Session ι ω) (t : Session ι ψ)
    (r : EStateM.Result StepError (Session ι ω) UInt64)
    (r' : EStateM.Result StepError (Session ι ψ) UInt64) : Prop :=
  ∃ tried tried', Course s tried r ∧ Course t tried' r' ∧ List.Forall₂ R tried tried' ∧ Alike R r r'

theorem Abreast.raised {R : Session ι ω → Session ι ψ → Prop} {s : Session ι ω} {t : Session ι ψ}
    {r : EStateM.Result StepError (Session ι ω) UInt64}
    {r' : EStateM.Result StepError (Session ι ψ) UInt64} (abreast : Abreast R s t r r') :
    (endState r).machine.cycles - s.machine.cycles =
      (endState r').machine.cycles - t.machine.cycles := by
  obtain ⟨tried, tried', course, course', all, alike⟩ := abreast
  have raised := course.raised
  have raised' := course'.raised
  apply UInt64.toNat_inj.mp
  rw [raised, raised', all.length_eq]
  cases alike <;> rfl

/-- The limited run does not end for want of room in the count. -/
def Uncut (n : UInt64) (s : Session ι ω) : Prop :=
  s.machine.cycles.toNat + n.toNat ≤ fullCount ∨ IsFinal (runLimited n s)

theorem runLimited_congr {n m : UInt64} {s : Session ι ω}
    (same : min n.toNat s.machine.countLeft = min m.toNat s.machine.countLeft) :
    runLimited n s = runLimited m s := by
  rw [runLimited_counted, runLimited_counted, same]

/-- A limit is as good as one that fits two counts, if the other run ends before its count is full
and the two runs end alike under the smaller limit. -/
theorem runLimited_of_uncut {n m : UInt64} {s : Session ι ω} {t : Session ι ψ}
    (fits : m.toNat = min n.toNat (min s.machine.countLeft t.machine.countLeft))
    (uncut : Uncut n t) (alike : IsFinal (runLimited m t) → IsFinal (runLimited m s)) :
    runLimited n s = runLimited m s := by
  by_cases same : min n.toNat s.machine.countLeft = min m.toNat s.machine.countLeft
  · exact runLimited_congr same
  · have final : IsFinal (runLimited n t) := by
      apply uncut.resolve_left
      simp only [Machine.countLeft, fullCount] at fits same ⊢
      omega
    rw [runLimited_congr (m := m) (by omega)] at final
    exact runLimited_final (alike final) (UInt64.le_iff_toNat_le.mpr (by omega))

namespace Lockstep

variable {R : Session ι ω → Session ι ψ → Prop} {s after last : Session ι ω} {t : Session ι ψ}
  {passed : List (Session ι ω)}

theorem done (lock : Lockstep R) (related : R s t) {i : Instruction}
    (done : DecimalMachine.step s = .ok i after) :
    ∃ after', DecimalMachine.step t = .ok i after' ∧ R after after' := by
  have alike := lock.step related
  rw [done] at alike
  generalize DecimalMachine.step t = stepped at alike
  cases alike with
  | ok related => exact ⟨_, rfl, related⟩

theorem failed (lock : Lockstep R) (related : R s t) {e : StepError}
    (failed : DecimalMachine.step s = .error e last) :
    ∃ last', DecimalMachine.step t = .error e last' ∧ R last last' := by
  have alike := lock.step related
  rw [failed] at alike
  generalize DecimalMachine.step t = stepped at alike
  cases alike with
  | error related => exact ⟨_, rfl, related⟩

theorem steps (lock : Lockstep R) (related : R s t) (steps : Steps s passed after) :
    ∃ passed' after', Steps t passed' after' ∧ List.Forall₂ R passed passed' ∧ R after after' := by
  induction steps generalizing t with
  | none => exact ⟨[], t, .none t, .nil, related⟩
  | more done rest ih =>
    obtain ⟨middle', done', related'⟩ := lock.done related done
    obtain ⟨passed', after', steps', all, end_related⟩ := ih related'
    exact ⟨t :: passed', after', .more done' steps', .cons related all, end_related⟩

theorem course (lock : Lockstep R) (related : R s t) {tried : List (Session ι ω)}
    {r : EStateM.Result StepError (Session ι ω) UInt64} (course : Course s tried r)
    (room : ((endState r).machine.cycles - s.machine.cycles).toNat ≤ t.machine.countLeft) :
    ∃ tried' r', Course t tried' r' ∧ List.Forall₂ R tried tried' ∧ Alike R r r' := by
  cases course with
  | completed steps bound count =>
    obtain ⟨passed', after', steps', all, related'⟩ := lock.steps related steps
    rw [endState, steps.counted bound, all.length_eq] at room
    exact ⟨passed', _, .completed steps' room (all.length_eq ▸ count), all, .ok related'⟩
  | failed steps bound running failed =>
    obtain ⟨passed', after', steps', all, related'⟩ := lock.steps related steps
    obtain ⟨last', failed', last_related⟩ := lock.failed related' failed
    rw [endState, (step_failed failed).same.cycles, steps.counted bound, all.length_eq] at room
    exact ⟨_, _, .failed steps' room (lock.state related' ▸ running) failed',
      List.rel_append all (.cons related' .nil), .error last_related⟩

theorem runLimited (lock : Lockstep R) (related : R s t) {max : UInt64}
    (allowed : min max.toNat s.machine.countLeft = min max.toNat t.machine.countLeft) :
    Abreast R s t (DecimalMachine.runLimited max s) (DecimalMachine.runLimited max t) := by
  obtain ⟨tried, course, bound, stops⟩ :=
    runLimited_eq_iff.mp (Eq.refl (DecimalMachine.runLimited max s))
  have room := course.raised_le
  obtain ⟨tried', r', course', all, alike⟩ := lock.course related course (by omega)
  rw [all.length_eq, allowed] at bound stops
  have ran' : DecimalMachine.runLimited max t = r' := runLimited_eq_iff.mpr
    ⟨tried', course', bound, fun fewer => (alike.isFinal lock.state).mp (stops fewer)⟩
  rw [ran']
  exact ⟨tried, tried', course, course', all, alike⟩

theorem runLimited_uncut (lock : Lockstep R) (related : R s t) {n : UInt64} (uncut : Uncut n s)
    (uncut' : Uncut n t) :
    Abreast R s t (DecimalMachine.runLimited n s) (DecimalMachine.runLimited n t) := by
  -- The largest limit that fits both counts is as good as `n` for both runs.
  obtain ⟨m, fits⟩ : ∃ m : UInt64,
      m.toNat = min n.toNat (min s.machine.countLeft t.machine.countLeft) := by
    have := n.toNat_lt
    exact ⟨.ofNat _, UInt64.toNat_ofNat_of_lt' (by simp only [UInt64.size]; omega)⟩
  have abreast : Abreast R s t (DecimalMachine.runLimited m s) (DecimalMachine.runLimited m t) :=
    lock.runLimited related (by omega)
  have ⟨_, _, _, _, _, alike⟩ := abreast
  have final := alike.isFinal lock.state
  rwa [runLimited_of_uncut fits uncut' final.mpr,
    runLimited_of_uncut (by rwa [Nat.min_comm t.machine.countLeft]) uncut final.mp]

theorem run (lock : Lockstep R) (related : R s t)
    {r : EStateM.Result StepError (Session ι ω) UInt64} (ran : run s = some r)
    (room : ((endState r).machine.cycles - s.machine.cycles).toNat ≤ t.machine.countLeft) :
    ∃ r', DecimalMachine.run t = some r' ∧ Abreast R s t r r' := by
  obtain ⟨tried, course, final⟩ := run_eq_iff.mp ran
  obtain ⟨tried', r', course', all, alike⟩ := lock.course related course room
  exact ⟨r', run_eq_iff.mpr ⟨tried', course', (alike.isFinal lock.state).mp final⟩,
    tried, tried', course, course', all, alike⟩

theorem room (lock : Lockstep R) (related : R s t)
    {r : EStateM.Result StepError (Session ι ω) UInt64}
    {r' : EStateM.Result StepError (Session ι ψ) UInt64} (ran : DecimalMachine.run s = some r)
    (ran' : DecimalMachine.run t = some r') :
    ((endState r).machine.cycles - s.machine.cycles).toNat ≤ t.machine.countLeft := by
  obtain ⟨tried, course, -⟩ := run_eq_iff.mp ran
  obtain ⟨tried', course', final'⟩ := run_eq_iff.mp ran'
  obtain ⟨passed, after, steps, bound, same⟩ := course.steps
  obtain ⟨passed', after', steps', all, -⟩ := lock.steps related steps
  rw [same, steps.counted bound, all.length_eq]
  exact course'.longest final' steps'

end Lockstep

/-! ### Machines side by side -/

structure Machine.Parallel (Q : Machine → Machine → Prop) : Prop where
  state : ∀ {m n}, Q m n → m.state = n.state
  refused : ∀ {m n e}, Q m n → m.latch = .error e → n.latch = .error e
  latched : ∀ {m n l}, Q m n → m.latch = .ok l → ∃ l', n.latch = .ok l' ∧ Q l l' ∧
    l.current = l'.current ∧ ∀ {ι : Type} [Source ι] (input : ι), l.reply input = l'.reply input
  raised : ∀ {m n} (fault : Fault), Q m n →
    Q { m with state := .faulted fault } { n with state := .faulted fault }
  committed : ∀ {m n} (change : Change), Q m n → Q (m.commit change) (n.commit change)

structure Session.Beside (Q : Machine → Machine → Prop) (holds : ω → String → Prop)
    (holds' : ψ → String → Prop) (s : Session ι ω) (t : Session ι ψ) : Prop where
  machine : Q s.machine t.machine
  input : s.console.input = t.console.input
  held : ∃ text, holds s.console.output text
  held' : ∃ text, holds' t.console.output text

theorem Session.step_replied {holds : ω → String → Prop} {holds' : ψ → String → Prop}
    {s : Session ι ω} {t : Session ι ψ} {l l' : Machine} {text text' : String}
    (reliable : Reliable holds) (reliable' : Reliable holds') (held : holds s.console.output text)
    (held' : holds' t.console.output text') (latched : s.machine.latch = .ok l)
    (latched' : t.machine.latch = .ok l') (input : s.console.input = t.console.input)
    (reply : l.reply s.console.input = l'.reply s.console.input) :
    ∃ c c', c.input = c'.input ∧ (∃ text, holds c.output text) ∧ (∃ text, holds' c'.output text) ∧
      DecimalMachine.step s = l.ended c (l.reply s.console.input).settled ∧
      DecimalMachine.step t = l'.ended c' (l.reply s.console.input).settled := by
  obtain ⟨c, left, heard, stepped⟩ := step_of_latched reliable held latched
  obtain ⟨c', left', heard', stepped'⟩ := step_of_latched reliable' held' latched'
  rw [← input, ← reply] at left' stepped'
  exact ⟨c, c', left.trans left'.symm, ⟨_, heard⟩, ⟨_, heard'⟩, stepped, stepped'⟩

theorem Machine.Parallel.lockstep {Q : Machine → Machine → Prop} {holds : ω → String → Prop}
    {holds' : ψ → String → Prop} (parallel : Machine.Parallel Q) (reliable : Reliable holds)
    (reliable' : Reliable holds') :
    Lockstep (Session.Beside Q holds holds' : Session ι ω → Session ι ψ → Prop) where
  state beside := parallel.state beside.machine
  step := by
    intro s t beside
    obtain ⟨text, held⟩ := beside.held
    obtain ⟨text', held'⟩ := beside.held'
    cases latched : s.machine.latch with
    | error e =>
      rw [Session.step_of_unlatched latched,
        Session.step_of_unlatched (parallel.refused beside.machine latched)]
      exact .error beside
    | ok l =>
      obtain ⟨l', latched', related, current, reply⟩ := parallel.latched beside.machine latched
      obtain ⟨c, c', same, heard, heard', stepped, stepped'⟩ := Session.step_replied reliable
        reliable' held held' latched latched' beside.input (reply _)
      rw [stepped, stepped']
      rcases (l.reply s.console.input).settled with e | fault | change
      · exact .error ⟨related, same, heard, heard'⟩
      · exact .error ⟨parallel.raised fault related, same, heard, heard'⟩
      · rw [Machine.ended, Machine.ended, current]
        exact .ok ⟨parallel.committed change related, same, heard, heard'⟩

theorem Machine.parallel_eq : Machine.Parallel Eq where
  state same := by rw [same]
  refused same refused := same ▸ refused
  latched same latched := ⟨_, same ▸ latched, rfl, rfl, fun _ => rfl⟩
  raised _ same := by rw [same]
  committed _ same := by rw [same]

end DecimalMachine
