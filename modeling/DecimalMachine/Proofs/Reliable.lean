import DecimalMachine.Console.Transcript
import DecimalMachine.Proofs.Step

/-!
Outputs that never fail, and what an instruction says to them.

At such an output a dialogue depends on the input alone. `Comes` says where it comes to and what it
writes, whatever was written before; `perform_comes` says it of a latched instruction.
-/

namespace DecimalMachine

variable {ι ω ε α β : Type}

/-- The output takes every text. `holds` relates it to the text that it was given. -/
structure Reliable [Sink ω] (holds : ω → String → Prop) : Prop where
  write : ∀ {output : ω} {text : String} (more : String), holds output text →
    ∃ output', Sink.write more output = .ok () output' ∧ holds output' (text ++ more)
  flush : ∀ {output : ω} {text : String}, holds output text →
    ∃ output', Sink.flush output = .ok () output' ∧ holds output' text

theorem Transcript.write_open {t : Transcript} (opened : t.isClosed = false) (text : String) :
    Sink.write text t = .ok () (t.append text) := if_neg (by rw [opened]; decide)

theorem Transcript.write_closed {t : Transcript} (closed : t.isClosed = true) (text : String) :
    Sink.write text t = .error t.refusal t := if_pos closed

def Transcript.Holds (t : Transcript) (text : String) : Prop := t.limit = none ∧ t.text = text

theorem Transcript.reliable : Reliable Transcript.Holds where
  write := by
    rintro ⟨_, lines, _, refusal⟩ text more ⟨rfl, rfl⟩
    exact ⟨_, rfl, rfl, rfl⟩
  flush := fun held => ⟨_, rfl, held⟩

def resultOf {σ : Type} : Except ε α → σ → EStateM.Result ε σ α
  | .ok a, s => .ok a s
  | .error e, s => .error e s

/-- With this input, the dialogue comes to `settled`, leaves `input'` and writes `said`. -/
def Comes (holds : ω → String → Prop) (act : Dialogue ι ω ε α) (input : ι) (settled : Except ε α)
    (input' : ι) (said : String) : Prop :=
  ∀ output journal text, holds output text → ∃ output' journal',
    act ⟨input, output, journal⟩ = resultOf settled ⟨input', output', journal'⟩ ∧
      holds output' (text ++ said)

namespace Comes

variable {holds : ω → String → Prop} {input input₁ input₂ : ι} {said said₁ said₂ : String}

theorem pure (a : α) : Comes holds (Pure.pure a : Dialogue ι ω ε α) input (.ok a) input "" := by
  intro output journal text held
  exact ⟨output, journal, rfl, by simpa using held⟩

theorem throw (e : ε) :
    Comes holds (MonadExcept.throw e : Dialogue ι ω ε α) input (.error e) input "" := by
  intro output journal text held
  exact ⟨output, journal, rfl, by simpa using held⟩

theorem bind {act : Dialogue ι ω ε α} {next : α → Dialogue ι ω ε β} {a : α} {settled : Except ε β}
    (first : Comes holds act input (.ok a) input₁ said₁)
    (second : Comes holds (next a) input₁ settled input₂ said₂)
    (whole : said₁ ++ said₂ = said := by simp) :
    Comes holds (act >>= next) input settled input₂ said := by
  subst whole
  intro output journal text held
  obtain ⟨output₁, journal₁, done, held₁⟩ := first output journal text held
  obtain ⟨output₂, journal₂, done₂, held₂⟩ := second output₁ journal₁ _ held₁
  refine ⟨output₂, journal₂, ?_, by simpa [String.append_assoc] using held₂⟩
  simp only [Bind.bind, EStateM.bind, done, resultOf]
  exact done₂

theorem bind_error {act : Dialogue ι ω ε α} {next : α → Dialogue ι ω ε β} {e : ε}
    (first : Comes holds act input (.error e) input₁ said) :
    Comes holds (act >>= next) input (.error e) input₁ said := by
  intro output journal text held
  obtain ⟨output₁, journal₁, failed, held₁⟩ := first output journal text held
  refine ⟨output₁, journal₁, ?_, held₁⟩
  simp only [Bind.bind, EStateM.bind, failed, resultOf]

theorem note (e : Event) :
    Comes holds (Console.note e : Dialogue ι ω ε Unit) input (.ok ()) input "" := by
  intro output journal text held
  exact ⟨output, journal.note e, rfl, by simpa using held⟩

variable [Sink ω] (reliable : Reliable holds)

include reliable

theorem write (text : String) : Comes holds (Console.write text) input (.ok ()) input text := by
  intro output journal before held
  obtain ⟨output', done, held'⟩ := reliable.write text held
  refine ⟨output', journal, ?_, held'⟩
  simp only [Console.write, Console.onOutput, done]
  rfl

theorem flush : Comes holds Console.flush input (.ok ()) input "" := by
  intro output journal text held
  obtain ⟨output', done, held'⟩ := reliable.flush held
  refine ⟨output', journal, ?_, by simpa using held'⟩
  simp only [Console.flush, Console.onOutput, done]
  rfl

theorem prompt (text : String) : Comes holds (Console.prompt text) input (.ok ()) input text := by
  unfold Console.prompt
  exact (write reliable text).bind (flush reliable)

theorem writeLines (lines : List String) :
    Comes holds (Console.writeLines lines) input (.ok ()) input
      (String.join (lines.map (· ++ "\n"))) := by
  induction lines with
  | nil => exact pure ()
  | cons line rest ih =>
    unfold Console.writeLines
    exact (write reliable (line ++ "\n")).bind ih

omit reliable [Sink ω]

theorem read [Source ι] : Comes holds Console.read input (Source.read input).1.outcome
    (Source.read input).2 "" := by
  intro output journal text held
  refine ⟨output, journal.noteAll ((Source.read input).1.skipped.map .ignoredInput), ?_,
    by simpa using held⟩
  simp only [Console.read]
  cases (Source.read input).1.outcome <;> rfl

end Comes

/-! ### One instruction -/

/-- What a latched instruction comes to, apart from its announcement. -/
structure Reply (ι : Type) where
  settled : Except IoError (Except Fault Change)
  input : ι
  said : String

namespace Machine

def reply [Source ι] (m : Machine) (input : ι) : Reply ι :=
  match m.plan m.current with
  | .error fault => ⟨.ok (.error fault), input, ""⟩
  | .ok (.change change) => ⟨.ok (.ok change), input, ""⟩
  | .ok (.print w) => ⟨.ok (.ok .nothing), input, Decimal.Numeral.plain.write w.value ++ "\n"⟩
  | .ok (.ask address) =>
    ⟨(Source.read input).1.outcome.map (m.receive address), (Source.read input).2, "? "⟩

def heading (m : Machine) : String := if m.trace then m.announcement ++ "\n" else ""

variable {holds : ω → String → Prop}

theorem announce_comes [Sink ω] (reliable : Reliable holds) (m : Machine) (input : ι) :
    Comes holds m.announce input (.ok ()) input m.heading := by
  unfold announce heading
  apply (Comes.note _).bind _ (String.empty_append ..)
  cases m.trace with
  | true => exact Comes.write reliable (m.announcement ++ "\n")
  | false => exact Comes.pure ()

theorem notice_comes (m : Machine) (settled : Except Fault Change) (input : ι) :
    Comes holds (m.notice settled) input (.ok ()) input "" := by
  unfold notice
  split
  · exact Comes.note _
  · exact Comes.note _
  · exact Comes.pure ()

theorem conclude_comes (m : Machine) (settled : Except Fault Change) (input : ι) :
    Comes holds (do m.notice settled; return settled : Dialogue ι ω IoError _) input (.ok settled)
      input "" :=
  (m.notice_comes settled input).bind (Comes.pure settled)

variable [Source ι] [Sink ω]

theorem carryOut_comes (reliable : Reliable holds) (m : Machine) {action : Action}
    (planned : m.plan m.current = .ok action) (input : ι) :
    Comes holds (m.carryOut action) input (m.reply input).settled (m.reply input).input
      (m.reply input).said := by
  cases action with
  | change change =>
    simp only [reply, planned]
    exact Comes.pure _
  | print w =>
    simp only [reply, planned]
    exact (Comes.write reliable _).bind (Comes.pure _)
  | ask address =>
    simp only [reply, planned]
    apply (Comes.prompt reliable "? ").bind _ (String.append_empty ..)
    have answer : Comes holds Console.read input _ _ "" := Comes.read
    generalize (Source.read input).1.outcome = outcome at answer ⊢
    cases outcome with
    | error e => exact answer.bind_error
    | ok value => exact answer.bind (Comes.pure _)

theorem perform_comes (reliable : Reliable holds) (m : Machine) (input : ι) :
    Comes holds m.perform input (m.reply input).settled (m.reply input).input
      (m.heading ++ (m.reply input).said) := by
  unfold perform
  apply (announce_comes reliable m input).bind _ rfl
  cases planned : m.plan m.current with
  | error fault =>
    simp only [reply, planned]
    exact (Comes.pure _).bind (m.conclude_comes _ _)
  | ok action =>
    have acted := carryOut_comes reliable m planned input
    cases came : (m.reply input).settled with
    | error e =>
      rw [came] at acted
      exact acted.bind_error
    | ok settled =>
      rw [came] at acted
      exact acted.bind (m.conclude_comes _ _)

def ended (m : Machine) (console : Console ι ω) :
    Except IoError (Except Fault Change) → EStateM.Result StepError (Session ι ω) Instruction
  | .error e => .error (.io e) ⟨m, console⟩
  | .ok (.error fault) => .error (.fault fault) ⟨{ m with state := .faulted fault }, console⟩
  | .ok (.ok change) => .ok m.current ⟨m.commit change, console⟩

omit [Source ι] [Sink ω] in
theorem endState_ended (m : Machine) (console : Console ι ω)
    (settled : Except IoError (Except Fault Change)) :
    (endState (m.ended console settled)).console = console := by
  rcases settled with e | fault | change <;> rfl

end Machine

/-! ### One step -/

namespace Session

variable [Source ι]

def alone (s : Session ι ω) : Session ι Transcript := ⟨s.machine, ⟨s.console.input, {}, {}⟩⟩

/-- What a step writes. -/
def written (s : Session ι ω) : String := (endState (step s.alone)).console.output.text

theorem step_of_unlatched [Sink ω] {s : Session ι ω} {e : StepError}
    (refused : s.machine.latch = .error e) : step s = .error e s := by
  obtain ⟨m, c⟩ := s
  simp only [step, refused]

theorem step_of_latched [Sink ω] {s : Session ι ω} {m : Machine} {holds : ω → String → Prop}
    {text : String} (reliable : Reliable holds) (held : holds s.console.output text)
    (latched : s.machine.latch = .ok m) :
    ∃ console, console.input = (m.reply s.console.input).input ∧
      holds console.output (text ++ (m.heading ++ (m.reply s.console.input).said)) ∧
      step s = m.ended console (m.reply s.console.input).settled := by
  obtain ⟨start, input, output, journal⟩ := s
  obtain ⟨output', journal', performed, held'⟩ :=
    Machine.perform_comes reliable m input output journal text held
  refine ⟨⟨(m.reply input).input, output', journal'⟩, rfl, held', ?_⟩
  simp only [step, latched, performed]
  rcases (m.reply input).settled with e | fault | change <;> rfl

theorem written_of_unlatched {s : Session ι ω} {e : StepError}
    (refused : s.machine.latch = .error e) : s.written = "" := by
  have stays : step s.alone = .error e s.alone := step_of_unlatched refused
  rw [written, stays]
  rfl

theorem written_of_latched {s : Session ι ω} {m : Machine} (latched : s.machine.latch = .ok m) :
    s.written = m.heading ++ (m.reply s.console.input).said := by
  have held : Transcript.Holds s.alone.console.output "" := ⟨rfl, rfl⟩
  obtain ⟨console, -, held', stepped⟩ := step_of_latched Transcript.reliable held latched
  rw [written, stepped, Machine.endState_ended, held'.2]
  exact String.empty_append

theorem step_writes [Sink ω] {s : Session ι ω} {holds : ω → String → Prop} {text : String}
    (reliable : Reliable holds) (held : holds s.console.output text) :
    holds (endState (step s)).console.output (text ++ s.written) := by
  cases latched : s.machine.latch with
  | error e =>
    rw [written_of_unlatched latched, step_of_unlatched latched]
    simpa [endState] using held
  | ok m =>
    obtain ⟨console, -, held', stepped⟩ := step_of_latched reliable held latched
    rw [written_of_latched latched, stepped, Machine.endState_ended]
    exact held'

end Session

end DecimalMachine
