import DecimalMachine.Proofs.Lockstep

/-!
The bookkeeping of a machine has no part in what its program does.

Two machines may differ in their count, their trace flag and their instruction register. A latch
gives both the same instruction, and nothing that an instruction does looks at the count or the
flag. The flag only decides whether the instruction is announced.
-/

namespace DecimalMachine

namespace Machine

/-- The fields that a program can see are the same. -/
structure SameProgram (m n : Machine) : Prop where
  memory : m.memory = n.memory
  accumulator : m.registers.accumulator = n.registers.accumulator
  index : m.registers.index = n.registers.index
  counter : m.registers.counter = n.registers.counter
  state : m.state = n.state

/-- The same program, under these trace flags. -/
structure Booked (flag flag' : Bool) (m n : Machine) : Prop extends m.SameProgram n where
  trace : m.trace = flag
  trace' : n.trace = flag'

namespace Booked

variable {flag flag' : Bool} {m n l : Machine}

theorem refused (booked : Booked flag flag' m n) {e : StepError} (refused : m.latch = .error e) :
    n.latch = .error e := by
  by_cases running : m.state = .running
  · have running' : n.state = .running := booked.state ▸ running
    cases fetched : m.memory.read m.location with
    | ok w => cases (latch_of_read running fetched).symm.trans refused
    | error e' =>
      cases (latch_of_unreadable running fetched).symm.trans refused
      rw [location, booked.memory, booked.counter] at fetched
      exact latch_of_unreadable running' fetched
  · cases (latch_of_stopped running).symm.trans refused
    rw [booked.state] at running ⊢
    exact latch_of_stopped running

theorem latched (booked : Booked flag flag' m n) (latched : m.latch = .ok l) :
    ∃ w, l = m.withInstruction w ∧ n.latch = .ok (n.withInstruction w) := by
  obtain ⟨running, w, fetched, rfl⟩ := latch_eq_ok latched
  rw [location, booked.memory, booked.counter] at fetched
  exact ⟨w, rfl, latch_of_read (booked.state ▸ running) fetched⟩

theorem withInstruction (booked : Booked flag flag' m n) (w : Word) :
    Booked flag flag' (m.withInstruction w) (n.withInstruction w) := by
  obtain ⟨⟨memory, accumulator, index, counter, state⟩, trace, trace'⟩ := booked
  exact ⟨⟨memory, accumulator, index, counter, state⟩, trace, trace'⟩

theorem reply {ι : Type} [Source ι] (booked : Booked flag flag' m n) (w : Word) (input : ι) :
    (m.withInstruction w).reply input = (n.withInstruction w).reply input := by
  obtain ⟨⟨_, _, _, _⟩, _, _, _, _⟩ := m
  obtain ⟨⟨_, _, _, _⟩, _, _, _, _⟩ := n
  -- Once the word is latched, only the count and the flag are left to differ.
  obtain ⟨⟨rfl, rfl, rfl, rfl, rfl⟩, -, -⟩ := booked
  rfl

theorem raise (booked : Booked flag flag' m n) (fault : Fault) :
    Booked flag flag' { m with state := .faulted fault } { n with state := .faulted fault } := by
  obtain ⟨⟨memory, accumulator, index, counter, -⟩, trace, trace'⟩ := booked
  exact ⟨⟨memory, accumulator, index, counter, rfl⟩, trace, trace'⟩

theorem commit (booked : Booked flag flag' m n) (change : Change) :
    Booked flag flag' (m.commit change) (n.commit change) := by
  obtain ⟨⟨_, _, _, _⟩, _, _, _, _⟩ := m
  obtain ⟨⟨_, _, _, _⟩, _, _, _, _⟩ := n
  obtain ⟨⟨rfl, rfl, rfl, rfl, rfl⟩, rfl, rfl⟩ := booked
  cases change <;> exact ⟨⟨rfl, rfl, rfl, rfl, rfl⟩, rfl, rfl⟩

end Booked

theorem parallel_booked (flag flag' : Bool) : Parallel (Booked flag flag') where
  state booked := booked.state
  refused booked refused := booked.refused refused
  latched := by
    intro m n l booked latched
    obtain ⟨w, rfl, latched'⟩ := booked.latched latched
    exact ⟨_, latched', booked.withInstruction w, rfl, booked.reply w⟩
  raised fault booked := booked.raise fault
  committed change booked := booked.commit change

end Machine

/-! ### Announcements -/

def traceLine (location : UInt64) (w : Word) : String :=
  "Executing instruction at " ++ Fault.locationNumeral.write location.toNat ++ ": " ++
    Word.numeral.write w.value ++ " " ++
    ("(OpCode: " ++ Instruction.codeNumeral.write (w.value.natAbs / 10000 : Nat) ++ ", Operand: " ++
      Instruction.operandNumeral.write (w.value.natAbs % 10000 : Nat) ++ ")") ++ "\n"

theorem Machine.announcement_withInstruction (m : Machine) (w : Word) :
    (m.withInstruction w).announcement ++ "\n" = traceLine m.location w := by
  have code : (m.withInstruction w).current.opcode.code.toNat = w.value.natAbs / 10000 := by
    rw [← w.opcode_toNat, ← Opcode.code_ofCode w.opcode]
    rfl
  have operand : (m.withInstruction w).current.operand.toNat = w.value.natAbs % 10000 :=
    w.operand_toNat
  unfold announcement Instruction.text traceLine
  rw [code, operand]
  rfl

variable {ι ω ψ : Type} {holds : ω → String → Prop} {holds' : ψ → String → Prop} {s : Session ι ω}
  {t : Session ι ψ}

/-- The announcement in front of a step: none if no word is fetched. -/
def Session.traceLine (s : Session ι ω) : String :=
  match s.machine.state, s.machine.memory.read s.machine.registers.counter with
  | .running, .ok w => DecimalMachine.traceLine s.machine.registers.counter w
  | _, _ => ""

theorem traceLine_of_refused {e : StepError} (refused : s.machine.latch = .error e) :
    s.traceLine = "" := by
  unfold Session.traceLine
  split
  · rename_i w running fetched
    cases (Machine.latch_of_read running fetched).symm.trans refused
  · rfl

variable [Source ι]

theorem written_traced (beside : s.Beside (Machine.Booked false true) holds holds' t) :
    t.written = s.traceLine ++ s.written := by
  have booked := beside.machine
  cases latched : s.machine.latch with
  | error e =>
    rw [Session.written_of_unlatched latched, traceLine_of_refused latched,
      Session.written_of_unlatched (booked.refused latched)]
    rfl
  | ok l =>
    obtain ⟨running, w, fetched, rfl⟩ := Machine.latch_eq_ok latched
    have latched' := Machine.latch_of_read (booked.state ▸ running)
      (by rw [Machine.location, ← booked.memory, ← booked.counter]; exact fetched)
    have silent : (s.machine.withInstruction w).heading = "" := by
      simp [Machine.heading, Machine.withInstruction, booked.trace]
    have loud : (t.machine.withInstruction w).heading = s.traceLine := by
      have on : (t.machine.withInstruction w).trace = true := booked.trace'
      unfold Machine.location at fetched
      rw [Machine.heading, if_pos on, Machine.announcement_withInstruction, Session.traceLine,
        running, fetched, Machine.location, booked.counter]
    rw [Session.written_of_latched latched, Session.written_of_latched latched', ← beside.input,
      ← booked.reply, silent, loud, String.empty_append]

theorem allWritten_traced {tried : List (Session ι ω)} {tried' : List (Session ι ψ)}
    (all : List.Forall₂ (Session.Beside (Machine.Booked false true) holds holds') tried tried') :
    allWritten tried' = String.join (tried.map fun u => u.traceLine ++ u.written) := by
  induction all with
  | nil => rfl
  | cons beside _ ih =>
    unfold allWritten at ih ⊢
    rw [List.map_cons, List.map_cons, String.join_cons, String.join_cons, ih, written_traced beside]

/-! ### Runs -/

variable [Sink ω] [Sink ψ] {text text' : String} {r : EStateM.Result StepError (Session ι ω) UInt64}
  {r' : EStateM.Result StepError (Session ι ψ) UInt64}

/-- Two runs with the same result, the same end of the program and the same number of steps. If only
the second one is announced, each of its steps writes its announcement in front of the rest. -/
structure Inert (holds : ω → String → Prop) (holds' : ψ → String → Prop) (s : Session ι ω)
    (t : Session ι ψ) (text text' : String) (r : EStateM.Result StepError (Session ι ω) UInt64)
    (r' : EStateM.Result StepError (Session ι ψ) UInt64) : Prop where
  result : Alike (fun after after' => after.machine.SameProgram after'.machine ∧
    after.console.input = after'.console.input) r r'
  counted : ∃ raised, (endState r).machine.cycles.toNat = s.machine.cycles.toNat + raised ∧
    (endState r').machine.cycles.toNat = t.machine.cycles.toNat + raised
  announced : s.machine.trace = false → t.machine.trace = true → ∃ tried, Course s tried r ∧
    holds (endState r).console.output (text ++ String.join (tried.map fun u => u.written)) ∧
    holds' (endState r').console.output
      (text' ++ String.join (tried.map fun u => u.traceLine ++ u.written))

theorem Inert.of_abreast (reliable : Reliable holds) (reliable' : Reliable holds')
    (held : holds s.console.output text) (held' : holds' t.console.output text')
    (abreast : Abreast
      (Session.Beside (Machine.Booked s.machine.trace t.machine.trace) holds holds') s t r r') :
    Inert holds holds' s t text text' r r' := by
  have same := congrArg UInt64.toNat abreast.raised
  obtain ⟨tried, tried', course, course', all, alike⟩ := abreast
  refine ⟨?_, ?_, ?_⟩
  · exact alike.mono fun _ _ beside => ⟨beside.machine.toSameProgram, beside.input⟩
  · have more := UInt64.le_iff_toNat_le.mp course.cycles_le
    have more' := UInt64.le_iff_toNat_le.mp course'.cycles_le
    rw [UInt64.toNat_sub_of_le _ _ course.cycles_le,
      UInt64.toNat_sub_of_le _ _ course'.cycles_le] at same
    exact ⟨_, (Nat.add_sub_cancel' more).symm, same ▸ (Nat.add_sub_cancel' more').symm⟩
  · intro off on
    rw [off, on] at all
    refine ⟨tried, course, course.writes reliable held, ?_⟩
    rw [← allWritten_traced all]
    exact course'.writes reliable' held'

/-- Machines that differ in their bookkeeping alone run alike: under a limit, unless a full count
cuts one of the runs short, and without a limit if both runs have a result. The second one has a
result as well if its count has room for the steps of the first. -/
theorem bookkeeping_inert (reliable : Reliable holds) (reliable' : Reliable holds')
    (held : holds s.console.output text) (held' : holds' t.console.output text')
    (program : s.machine.SameProgram t.machine) (input : s.console.input = t.console.input) :
    (∀ n : UInt64, Uncut n s → Uncut n t →
      Inert holds holds' s t text text' (runLimited n s) (runLimited n t)) ∧
    (∀ r r', run s = some r → run t = some r' → Inert holds holds' s t text text' r r') ∧
    (∀ r, run s = some r → t.machine.cycles.toNat +
      ((endState r).machine.cycles.toNat - s.machine.cycles.toNat) ≤ fullCount →
      ∃ r', run t = some r') := by
  have lock := (Machine.parallel_booked s.machine.trace t.machine.trace).lockstep (ι := ι) reliable
    reliable'
  have beside : s.Beside (Machine.Booked s.machine.trace t.machine.trace) holds holds' t :=
    ⟨⟨program, rfl, rfl⟩, input, ⟨_, held⟩, ⟨_, held'⟩⟩
  refine ⟨?_, ?_, ?_⟩
  · intro n uncut uncut'
    apply Inert.of_abreast reliable reliable' held held'
    exact lock.runLimited_uncut beside uncut uncut'
  · intro r r' ran ran'
    obtain ⟨r'', ran'', abreast⟩ := lock.run beside ran (lock.room beside ran ran')
    cases ran'.symm.trans ran''
    exact Inert.of_abreast reliable reliable' held held' abreast
  · intro r ran room
    obtain ⟨tried, course, -⟩ := run_eq_iff.mp ran
    have allowed : ((endState r).machine.cycles - s.machine.cycles).toNat ≤
        t.machine.countLeft := by
      rw [UInt64.toNat_sub_of_le _ _ course.cycles_le, Machine.countLeft]
      omega
    obtain ⟨r', ran', -⟩ := lock.run beside ran allowed
    exact ⟨r', ran'⟩

-- The short-lived session under trace, with a count and an instruction register of its own.
def observed : Session Script Transcript :=
  { shortLived with
    machine := { shortLived.machine.withInstruction ⟨-450000, by decide, by decide⟩ with
      cycles := 7, trace := true } }

theorem bookkeeping_inert_observed :
    shortLived.machine.SameProgram observed.machine ∧
    Uncut 5 shortLived ∧ Uncut 5 observed ∧
    Inert Transcript.Holds Transcript.Holds shortLived observed "" ""
      (runLimited 5 shortLived) (runLimited 5 observed) ∧
    (endState (runLimited 5 observed)).machine.cycles = 8 := by
  have program : shortLived.machine.SameProgram observed.machine := ⟨rfl, rfl, rfl, rfl, rfl⟩
  have uncut : Uncut 5 shortLived := .inl (by decide)
  have uncut' : Uncut 5 observed := .inl (by decide)
  have inert := bookkeeping_inert Transcript.reliable Transcript.reliable ⟨rfl, rfl⟩ ⟨rfl, rfl⟩
    program rfl
  exact ⟨program, uncut, uncut', inert.1 5 uncut uncut', by rfl⟩

end DecimalMachine
