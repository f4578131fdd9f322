import DecimalMachine.Proofs.Footprint
import DecimalMachine.Proofs.Lockstep
import DecimalMachine.Proofs.Packing

/-!
The signs of words that are only carried out.

An instruction uses the magnitude of its word, unless it loads the word itself. So a machine may
hold some words with the opposite sign, and runs like the other one until it takes one of them for a
number. A cell that is overwritten holds the same word in both machines from then on.
-/

namespace DecimalMachine

namespace Word

theorem usedAlike_neg {w : Word} (carried : (Instruction.ofWord w).opcode ≠ .loadImmediate) :
    w.UsedAlike w.neg where
  opcode := by rw [instruction_neg]
  operand := fun _ => w.operand_neg.symm
  immediate := fun op => absurd op carried

end Word

/-- The second memory holds the words of the first one, those in `S` with the opposite sign. -/
structure Memory.NegatedOn (S : Set Nat) (M N : Memory) : Prop where
  outside : ∀ k, k ∉ S → N.cells[k]? = M.cells[k]?
  inside : ∀ k, k ∈ S → N.cells[k]? = M.cells[k]?.map Word.neg

namespace Memory.NegatedOn

variable {S : Set Nat} {M N : Memory}

theorem missing_iff (negated : NegatedOn S M N) (k : Nat) :
    N.cells[k]? = none ↔ M.cells[k]? = none := by
  by_cases mem : k ∈ S
  · rw [negated.inside k mem, Option.map_eq_none_iff]
  · rw [negated.outside k mem]

theorem agreeOff (negated : NegatedOn S M N) : AgreeOff S M N := by
  constructor
  · -- The cell behind the last one is missing in both.
    have first := (negated.missing_iff M.cells.size).mpr (Array.getElem?_eq_none (Nat.le_refl _))
    have second := (negated.missing_iff N.cells.size).mp (Array.getElem?_eq_none (Nat.le_refl _))
    rw [Array.getElem?_eq_none_iff] at first second
    exact Nat.le_antisymm second first
  · intro k outside
    exact (negated.outside k outside).symm

theorem read (negated : NegatedOn S M N) {address : UInt64} {w : Word}
    (found : M.read address = .ok w) :
    (address.toNat ∉ S ∧ N.read address = .ok w) ∨
      (address.toNat ∈ S ∧ N.read address = .ok w.neg) := by
  simp only [Memory.read_eq_ok_iff] at found ⊢
  by_cases mem : address.toNat ∈ S
  · exact .inr ⟨mem, by rw [negated.inside _ mem, found, Option.map_some]⟩
  · exact .inl ⟨mem, by rw [negated.outside _ mem, found]⟩

theorem read_error (negated : NegatedOn S M N) {address : UInt64} {e : MemoryError}
    (missing : M.read address = .error e) : N.read address = .error e := by
  unfold Memory.read at missing ⊢
  split at missing
  · cases missing
  · rename_i here
    rw [(negated.missing_iff _).mpr here]
    exact missing

theorem set (negated : NegatedOn S M N) (address : UInt64) (w : Word) :
    NegatedOn (S \ {address.toNat}) (M.set address w) (N.set address w) := by
  constructor
  · intro k outside
    exact ((negated.agreeOff.set address w).cells k outside).symm
  · rintro k ⟨inside, apart⟩
    have other : address.toNat ≠ k := fun same => apart same.symm
    simp only [Memory.set, Array.getElem?_setIfInBounds_ne other]
    exact negated.inside k inside

end Memory.NegatedOn

namespace Machine

/-- Two machines with trace off that differ only in the signs of the words in `S`, and in their
instruction registers. -/
structure Mirrored (S : Set Nat) (m n : Machine) : Prop extends m.SameBesideMemory n where
  memory : m.memory.NegatedOn S n.memory
  silent : m.trace = false

/-- The instruction at the counter looks at the sign of this cell: it loads its own word from there,
or reads the cell as data. -/
def Heeds (m : Machine) (cell : Nat) : Prop :=
  ∃ i, m.next? = some i ∧
    ((i.opcode = .loadImmediate ∧ cell = m.location.toNat) ∨ m.ReadsAt i cell)

namespace Mirrored

variable {S : Set Nat} {m n l : Machine}

theorem refused (mirrored : Mirrored S m n) {e : StepError} (refused : m.latch = .error e) :
    n.latch = .error e := by
  by_cases running : m.state = .running
  · have running' : n.state = .running := mirrored.state ▸ running
    cases fetched : m.memory.read m.location with
    | ok w => cases (latch_of_read running fetched).symm.trans refused
    | error e' =>
      cases (latch_of_unreadable running fetched).symm.trans refused
      rw [mirrored.location] at fetched
      exact latch_of_unreadable running' (mirrored.memory.read_error fetched)
  · cases (latch_of_stopped running).symm.trans refused
    rw [mirrored.state] at running ⊢
    exact latch_of_stopped running

theorem withInstruction (mirrored : Mirrored S m n) (v w : Word) :
    Mirrored S (m.withInstruction v) (n.withInstruction w) :=
  ⟨mirrored.toSameBesideMemory.withInstruction v w, mirrored.memory, mirrored.silent⟩

theorem latched (mirrored : Mirrored S m n) (heedless : ∀ cell ∈ S, ¬ m.Heeds cell)
    (latched : m.latch = .ok l) :
    ∃ l', n.latch = .ok l' ∧ Mirrored S l l' ∧ l.UsedAlike S l' ∧ l.current = l'.current := by
  have next := next?_of_latched latched
  obtain ⟨running, w, fetched, rfl⟩ := latch_eq_ok latched
  have running' : n.state = .running := mirrored.state ▸ running
  have unread : ∀ cell ∈ S, ¬ (m.withInstruction w).ReadsAt (m.withInstruction w).current cell :=
    fun cell inside reads => heedless cell inside ⟨_, next, .inr reads⟩
  rcases mirrored.memory.read fetched with ⟨outside, fetched'⟩ | ⟨inside, fetched'⟩
  · rw [mirrored.location] at fetched'
    have both := mirrored.withInstruction w w
    exact ⟨_, latch_of_read running' fetched', both,
      ⟨both.toSameBesideMemory, both.memory.agreeOff, .refl w, unread⟩, rfl⟩
  · rw [mirrored.location] at fetched'
    have both := mirrored.withInstruction w w.neg
    have carried : (Instruction.ofWord w).opcode ≠ .loadImmediate := fun op =>
      heedless _ inside ⟨_, next, .inl ⟨op, rfl⟩⟩
    exact ⟨_, latch_of_read running' fetched', both,
      ⟨both.toSameBesideMemory, both.memory.agreeOff, Word.usedAlike_neg carried, unread⟩,
      w.instruction_neg.symm⟩

theorem raise (mirrored : Mirrored S m n) (fault : Fault) :
    Mirrored S { m with state := .faulted fault } { n with state := .faulted fault } :=
  ⟨mirrored.toSameBesideMemory.raise fault, mirrored.memory, mirrored.silent⟩

theorem commit {T : Set Nat} (mirrored : Mirrored S m n) {change : Change}
    (memory : (change.onMemory m.memory).NegatedOn T (change.onMemory n.memory)) :
    Mirrored T (m.commit change) (n.commit change) := by
  refine ⟨mirrored.toSameBesideMemory.commit change, ?_, ?_⟩
  · rw [commit_memory, commit_memory]
    exact memory
  · rw [commit_trace]
    exact mirrored.silent

theorem heading (mirrored : Mirrored S m n) : m.heading = "" ∧ n.heading = "" := by
  have silent' : n.trace = false := mirrored.trace ▸ mirrored.silent
  simp [Machine.heading, mirrored.silent, silent']

end Mirrored

end Machine

variable {ι ω ψ : Type} [Source ι] [Sink ω] [Sink ψ]

def Session.Overwrites (s : Session ι ω) (cell : Nat) : Prop :=
  ∃ i after, step s = .ok i after ∧ i.opcode.overwrites = true ∧ s.machine.Addresses i cell

def Session.spares (s : Session ι ω) (S : Set Nat) : Set Nat := { cell ∈ S | ¬ s.Overwrites cell }

/-- What these steps leave of a set of cells. -/
def remaining (S : Set Nat) : List (Session ι ω) → Set Nat
  | [] => S
  | s :: rest => remaining (s.spares S) rest

/-- None of these steps looks at the sign of a cell that is still in `S` when it is tried. -/
def Heedless (S : Set Nat) : List (Session ι ω) → Prop
  | [] => True
  | s :: rest => (∀ cell ∈ S, ¬ s.machine.Heeds cell) ∧ Heedless (s.spares S) rest

variable {S : Set Nat} {holds : ω → String → Prop} {holds' : ψ → String → Prop} {s : Session ι ω}
  {t : Session ι ψ}

theorem remaining_append (tried rest : List (Session ι ω)) :
    remaining S (tried ++ rest) = remaining (remaining S tried) rest := by
  induction tried generalizing S with
  | nil => rfl
  | cons s tried ih => exact ih

theorem heedless_append {tried rest : List (Session ι ω)} :
    Heedless S (tried ++ rest) ↔ Heedless S tried ∧ Heedless (remaining S tried) rest := by
  induction tried generalizing S with
  | nil => simp [Heedless, remaining]
  | cons s tried ih => simp only [List.cons_append, Heedless, remaining, ih, and_assoc]

theorem overwrites_of_done {i : Instruction} {after : Session ι ω} (done : step s = .ok i after)
    (cell : Nat) :
    s.Overwrites cell ↔ i.opcode.overwrites = true ∧ s.machine.Addresses i cell := by
  constructor
  · rintro ⟨i', after', done', overwrites⟩
    cases done.symm.trans done'
    exact overwrites
  · exact fun overwrites => ⟨i, after, done, overwrites⟩

theorem spares_of_none (none : ∀ cell, ¬ s.Overwrites cell) : s.spares S = S := by
  ext cell
  simp [Session.spares, none]

theorem spares_of_failed {e : StepError} {last : Session ι ω} (failed : step s = .error e last) :
    s.spares S = S := by
  apply spares_of_none
  rintro cell ⟨i, after, done, -⟩
  cases failed.symm.trans done

theorem negatedOn_spares {l : Machine} {c : Console ι ω} {change : Change} {M N : Memory}
    (latched : s.machine.latch = .ok l) (settles : l.Settles (.ok change))
    (done : step s = .ok l.current ⟨l.commit change, c⟩) (negated : M.NegatedOn S N) :
    (change.onMemory M).NegatedOn (s.spares S) (change.onMemory N) := by
  have overwrites := overwrites_of_done done
  obtain ⟨-, w, -, rfl⟩ := Machine.latch_eq_ok latched
  cases settles.overwriting with
  | @stored address word op given same =>
    have spares : s.spares S = S \ {address.toNat} := by
      ext cell
      have here : s.Overwrites cell ↔ cell = address.toNat :=
        (overwrites cell).trans ((and_iff_right op).trans (Machine.addresses_iff given cell))
      simp [Session.spares, here]
    rw [same, spares]
    exact negated.set address word
  | spared op same =>
    have spares : s.spares S = S := by
      apply spares_of_none
      intro cell hit
      cases op.symm.trans ((overwrites cell).mp hit).1
    rw [same, same, spares]
    exact negated

structure Session.TriesLike (s : Session ι ω) (t : Session ι ψ) : Prop where
  next : s.machine.next? = t.machine.next?
  written : s.written = t.written

omit [Source ι] [Sink ω] [Sink ψ] in
theorem next?_mirrored (beside : s.Beside (Machine.Mirrored S) holds holds' t) :
    s.machine.next? = t.machine.next? := by
  have mirrored := beside.machine
  unfold Machine.next?
  rw [← mirrored.location]
  cases fetched : s.machine.memory.read s.machine.location with
  | error e => rw [mirrored.memory.read_error fetched]
  | ok w =>
    rcases mirrored.memory.read fetched with ⟨-, fetched'⟩ | ⟨-, fetched'⟩
    · rw [fetched']
    · rw [fetched']
      simp only [Word.instruction_neg]

omit [Sink ω] [Sink ψ] in
theorem written_mirrored (beside : s.Beside (Machine.Mirrored S) holds holds' t)
    (heedless : ∀ cell ∈ S, ¬ s.machine.Heeds cell) : s.written = t.written := by
  have mirrored := beside.machine
  cases latched : s.machine.latch with
  | error e =>
    rw [Session.written_of_unlatched latched,
      Session.written_of_unlatched (mirrored.refused latched)]
  | ok l =>
    obtain ⟨l', latched', mirrored', alike, -⟩ := mirrored.latched heedless latched
    rw [Session.written_of_latched latched, Session.written_of_latched latched',
      mirrored'.heading.1, mirrored'.heading.2, alike.reply, beside.input]

/-- Two runs that try the same instructions, write the same, take the same input and return the
same, and leave machines that differ only in the signs of what is left of `S`. -/
structure MirroredRuns (S : Set Nat) (holds : ω → String → Prop) (holds' : ψ → String → Prop)
    (t : Session ι ψ) (text text' : String) (tried : List (Session ι ω))
    (r : EStateM.Result StepError (Session ι ω) UInt64)
    (r' : EStateM.Result StepError (Session ι ψ) UInt64) : Prop where
  tries : ∃ tried', Course t tried' r' ∧
    List.Forall₂ (fun u u' => u.machine.next? = u'.machine.next?) tried tried'
  ends : Alike (fun after after' => after.machine.Mirrored (remaining S tried) after'.machine ∧
    after.console.input = after'.console.input) r r'
  written : ∃ said, holds (endState r).console.output (text ++ said) ∧
    holds' (endState r').console.output (text' ++ said)

section Runs

variable {text text' : String} (reliable : Reliable holds) (reliable' : Reliable holds')

include reliable reliable'

theorem step_mirrored (beside : s.Beside (Machine.Mirrored S) holds holds' t)
    (heedless : ∀ cell ∈ S, ¬ s.machine.Heeds cell) :
    Alike (Session.Beside (Machine.Mirrored (s.spares S)) holds holds') (step s) (step t) := by
  have mirrored := beside.machine
  cases latched : s.machine.latch with
  | error e =>
    have failed : step s = .error e s := Session.step_of_unlatched latched
    rw [spares_of_failed failed, failed, Session.step_of_unlatched (mirrored.refused latched)]
    exact .error beside
  | ok l =>
    obtain ⟨l', latched', mirrored', alike, current⟩ := mirrored.latched heedless latched
    obtain ⟨text, held⟩ := beside.held
    obtain ⟨text', held'⟩ := beside.held'
    obtain ⟨c, c', same, heard, heard', stepped, stepped'⟩ :=
      Session.step_replied reliable reliable'
      held held' latched latched' beside.input (alike.reply _)
    cases came : (l.reply s.console.input).settled with
    | error e =>
      rw [came] at stepped stepped'
      rw [spares_of_failed stepped, stepped, stepped']
      exact .error ⟨mirrored', same, heard, heard'⟩
    | ok settled =>
      rw [came] at stepped stepped'
      cases settled with
      | error fault =>
        rw [spares_of_failed stepped, stepped, stepped']
        exact .error ⟨mirrored'.raise fault, same, heard, heard'⟩
      | ok change =>
        have settles := Machine.reply_settles came
        have memory := negatedOn_spares latched settles stepped mirrored'.memory
        rw [stepped, stepped', Machine.ended, Machine.ended, current]
        exact .ok ⟨mirrored'.commit memory, same, heard, heard'⟩

theorem Steps.mirrored {passed : List (Session ι ω)} {after : Session ι ω}
    (steps : Steps s passed after) (beside : s.Beside (Machine.Mirrored S) holds holds' t)
    (heedless : Heedless S passed) :
    ∃ passed' after', Steps t passed' after' ∧
      List.Forall₂ Session.TriesLike passed passed' ∧
      after.Beside (Machine.Mirrored (remaining S passed)) holds holds' after' := by
  induction steps generalizing S t with
  | none => exact ⟨[], t, .none t, .nil, beside⟩
  | @more s middle after i passed done rest ih =>
    have alike := step_mirrored reliable reliable' beside heedless.1
    rw [done] at alike
    generalize stepped : step t = r at alike
    cases alike with
    | ok related =>
      obtain ⟨passed', after', steps', all, related'⟩ := ih related heedless.2
      have tries : s.TriesLike t := ⟨next?_mirrored beside, written_mirrored beside heedless.1⟩
      exact ⟨t :: passed', after', .more stepped steps', .cons tries all, related'⟩

theorem Course.mirrored {tried : List (Session ι ω)}
    {r : EStateM.Result StepError (Session ι ω) UInt64} (course : Course s tried r)
    (beside : s.Beside (Machine.Mirrored S) holds holds' t) (heedless : Heedless S tried) :
    ∃ tried' r', Course t tried' r' ∧ List.Forall₂ Session.TriesLike tried tried' ∧
      Alike (Session.Beside (Machine.Mirrored (remaining S tried)) holds holds') r r' := by
  have left : s.machine.countLeft = t.machine.countLeft := by
    rw [Machine.countLeft, Machine.countLeft, beside.machine.cycles]
  cases course with
  | completed steps room count =>
    obtain ⟨tried', after', steps', all, related⟩ :=
      steps.mirrored reliable reliable' beside heedless
    rw [left, all.length_eq] at room
    exact ⟨tried', _, .completed steps' room (all.length_eq ▸ count), all, .ok related⟩
  | @failed passed after last e steps room running failed =>
    rw [heedless_append] at heedless
    obtain ⟨passed', after', steps', all, related⟩ :=
      steps.mirrored reliable reliable' beside heedless.1
    have alike := step_mirrored reliable reliable' related heedless.2.1
    have tries : after.TriesLike after' :=
      ⟨next?_mirrored related, written_mirrored related heedless.2.1⟩
    rw [failed] at alike
    generalize stepped : step after' = r at alike
    cases alike with
    | error related' =>
      rw [left, all.length_eq] at room
      refine ⟨_, _, .failed steps' room (related.machine.state ▸ running) stepped,
        List.rel_append all (.cons tries .nil), .error ?_⟩
      rw [remaining_append]
      exact related'

theorem Course.mirroredRuns {tried : List (Session ι ω)} {tried' : List (Session ι ψ)}
    {r : EStateM.Result StepError (Session ι ω) UInt64}
    {r' : EStateM.Result StepError (Session ι ψ) UInt64} (held : holds s.console.output text)
    (held' : holds' t.console.output text') (course : Course s tried r)
    (course' : Course t tried' r') (all : List.Forall₂ Session.TriesLike tried tried')
    (alike : Alike (Session.Beside (Machine.Mirrored (remaining S tried)) holds holds') r r') :
    MirroredRuns S holds holds' t text text' tried r r' := by
  refine ⟨⟨tried', course', all.imp fun _ _ tries => tries.next⟩, ?_, ?_⟩
  · exact alike.mono fun _ _ beside => ⟨beside.machine, beside.input⟩
  · refine ⟨_, course.writes reliable held, ?_⟩
    rw [allWritten_congr (all.imp fun _ _ tries => tries.written)]
    exact course'.writes reliable' held'

/-- A run that does not look at the signs of the cells in `S` goes alike on a machine that holds
them with the opposite signs, under a limit and without one. -/
theorem signs_immaterial (held : holds s.console.output text)
    (held' : holds' t.console.output text')
    (mirrored : s.machine.Mirrored S t.machine) (input : s.console.input = t.console.input) :
    (∀ n, (∃ tried, Course s tried (runLimited n s)) ∧
      ∀ tried, Course s tried (runLimited n s) → Heedless S tried →
        MirroredRuns S holds holds' t text text' tried (runLimited n s) (runLimited n t)) ∧
    ∀ r, run s = some r → (∃ tried, Course s tried r) ∧
      ∀ tried, Course s tried r → Heedless S tried →
        ∃ r', run t = some r' ∧ MirroredRuns S holds holds' t text text' tried r r' := by
  have beside : s.Beside (Machine.Mirrored S) holds holds' t :=
    ⟨mirrored, input, ⟨_, held⟩, ⟨_, held'⟩⟩
  have left : s.machine.countLeft = t.machine.countLeft := by
    rw [Machine.countLeft, Machine.countLeft, mirrored.cycles]
  constructor
  · intro n
    obtain ⟨known, known_course, bound, stops⟩ :=
      runLimited_eq_iff.mp (Eq.refl (runLimited n s))
    refine ⟨⟨known, known_course⟩, ?_⟩
    intro tried course heedless
    cases course.unique known_course
    obtain ⟨tried', r', course', all, alike⟩ :=
      course.mirrored reliable reliable' beside heedless
    rw [all.length_eq, left] at bound stops
    have final := alike.isFinal fun beside => beside.machine.state
    have ran' : runLimited n t = r' :=
      runLimited_eq_iff.mpr ⟨tried', course', bound, fun fewer => final.mp (stops fewer)⟩
    rw [ran']
    exact course.mirroredRuns reliable reliable' held held' course' all alike
  · intro r ran
    obtain ⟨known, known_course, ended⟩ := run_eq_iff.mp ran
    refine ⟨⟨known, known_course⟩, ?_⟩
    intro tried course heedless
    obtain ⟨tried', r', course', all, alike⟩ :=
      course.mirrored reliable reliable' beside heedless
    have final := alike.isFinal fun beside => beside.machine.state
    exact ⟨r', run_eq_iff.mpr ⟨tried', course', final.mp ended⟩,
      course.mirroredRuns reliable reliable' held held' course' all alike⟩

end Runs

-- A program that puts a number in the place of its first word, and adds it.
def replacing : Session Script Transcript :=
  programmed [200003, 250000, 300000, 450000] []

def replacingNegative : Session Script Transcript :=
  programmed [-200003, -250000, 300000, 450000] []

theorem replacing_mirrored :
    replacing.machine.Mirrored {0, 1} replacingNegative.machine := by
  refine ⟨⟨rfl, rfl, rfl, rfl, rfl, rfl⟩, ⟨?_, ?_⟩, rfl⟩
  · intro k outside
    match k with
    | 0 | 1 => simp at outside
    | k + 2 => rfl
  · rintro k (rfl | rfl) <;> rfl

def replacingLoaded : Session Script Transcript :=
  ⟨⟨⟨.ofInt 450000, 0, 1, .ofInt 200003⟩,
    replacing.machine.memory, .running, 1, false⟩, replacing.console⟩

def replacingStored : Session Script Transcript :=
  ⟨⟨⟨.ofInt 450000, 0, 2, .ofInt 250000⟩,
    replacing.machine.memory.set 0 (.ofInt 450000), .running, 2, false⟩,
    replacing.console⟩

theorem replacing_heedless : Heedless {0, 1} [replacing, replacingLoaded, replacingStored] := by
  have stores : step replacingLoaded = .ok ⟨.store, 0⟩ replacingStored := by rfl
  refine ⟨?_, ?_, ?_, trivial⟩
  · rintro cell inside ⟨i, next, heeds⟩
    cases (show some ⟨.load, 3⟩ = some i from next)
    rcases heeds with ⟨op, -⟩ | ⟨-, rfl⟩
    · cases op
    · simp at inside
  · rintro cell - ⟨i, next, heeds⟩
    cases (show some ⟨.store, 0⟩ = some i from next)
    rcases heeds with ⟨op, -⟩ | ⟨op, -⟩ <;> cases op
  · rintro cell ⟨-, kept⟩ ⟨i, next, heeds⟩
    cases (show some ⟨.add, 0⟩ = some i from next)
    rcases heeds with ⟨op, -⟩ | ⟨-, rfl⟩
    · cases op
    · exact kept ⟨_, _, stores, rfl, rfl⟩

theorem signs_immaterial_replacing :
    replacing.machine.Mirrored {0, 1} replacingNegative.machine ∧
    ∃ tried, Course replacing tried (runLimited 3 replacing) ∧ Heedless {0, 1} tried ∧
      MirroredRuns {0, 1} Transcript.Holds Transcript.Holds replacingNegative "" "" tried
        (runLimited 3 replacing) (runLimited 3 replacingNegative) ∧
      (endState (runLimited 3 replacing)).machine.registers.accumulator.value = 900000 := by
  have steps : Steps replacing [replacing, replacingLoaded, replacingStored]
      (endState (step replacingStored)) :=
    .more (i := ⟨.load, 3⟩) (by rfl) (.more (i := ⟨.store, 0⟩) (by rfl)
      (.more (i := ⟨.add, 0⟩) (by rfl) (.none _)))
  have ran : runLimited 3 replacing = .ok 3 (endState (step replacingStored)) :=
    runLimited_ok_iff.mpr ⟨_, steps, by decide, by decide, rfl⟩
  have course : Course replacing [replacing, replacingLoaded, replacingStored]
      (runLimited 3 replacing) := ran ▸ .completed steps (by decide) rfl
  have held : Transcript.Holds {} "" := ⟨rfl, rfl⟩
  have runs := (signs_immaterial Transcript.reliable Transcript.reliable (s := replacing)
    (t := replacingNegative) held held replacing_mirrored rfl).1 3
  refine ⟨replacing_mirrored, _, course, replacing_heedless, runs.2 _ course replacing_heedless, ?_⟩
  rw [ran]
  rfl

end DecimalMachine
