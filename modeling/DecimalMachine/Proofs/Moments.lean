import DecimalMachine.Proofs.Reliable

/-!
What a dialogue says to its output, and how much of its input is unread at each moment.

`Tells` has a rule for each thing that a dialogue is made of. `Tells.at_output` draws from it what
becomes of the dialogue at any output whatever: it goes on as long as the output takes what is said,
and breaks off at the first refusal, with the input as it is at that moment.
-/

namespace DecimalMachine

variable {ι ω ε α : Type}

inductive Utterance where
  | write (text : String)
  | flush

namespace Utterance

def say [Sink ω] : Utterance → EStateM IoError ω Unit
  | .write text => Sink.write text
  | .flush => Sink.flush

def written : Utterance → String
  | .write text => text
  | .flush => ""

end Utterance

structure Moment (ι : Type) where
  input : ι
  said : Utterance

def told (ms : List (Moment ι)) : String := String.join (ms.map (·.said.written))

/-- Gives the output these moments one after another, up to the first that it refuses; the failure
comes with what is unread at that moment. -/
def recite [Sink ω] : List (Moment ι) → EStateM (IoError × ι) ω Unit
  | [] => pure ()
  | m :: rest => fun output =>
    match m.said.say output with
    | .ok () output => recite rest output
    | .error e output => .error (e, m.input) output

theorem recite_append [Sink ω] (ms ms' : List (Moment ι)) (output : ω) :
    recite (ms ++ ms') output = match recite ms output with
      | .ok () output => recite ms' output
      | .error e output => .error e output := by
  induction ms generalizing output with
  | nil => rfl
  | cons m rest ih =>
    simp only [List.cons_append, recite]
    cases m.said.say output with
    | ok u output' => exact ih output'
    | error e output' => rfl

/-- From `input` the dialogue goes through these moments, comes to `settled` and leaves `input'`. A
refusal of the output ends it with the error that `raise` makes of it. -/
inductive Tells [Sink ω] : {ε α : Type} → (raise : IoError → ε) → Dialogue ι ω ε α → (input : ι) →
    List (Moment ι) → (settled : Except ε α) → (input' : ι) → Prop where
  | silent {ε α : Type} {raise : IoError → ε} {act : Dialogue ι ω ε α} {input input' : ι}
      {settled : Except ε α}
      (quiet : ∀ output journal, ∃ journal',
        act ⟨input, output, journal⟩ = resultOf settled ⟨input', output, journal'⟩) :
      Tells raise act input [] settled input'
  | write (text : String) (input : ι) :
      Tells id (Console.write text) input [⟨input, .write text⟩] (.ok ()) input
  | flush (input : ι) : Tells id Console.flush input [⟨input, .flush⟩] (.ok ()) input
  | bind {ε α β : Type} {raise : IoError → ε} {act : Dialogue ι ω ε α} {next : α → Dialogue ι ω ε β}
      {input input₁ input₂ : ι} {ms ms' : List (Moment ι)} {a : α} {settled : Except ε β}
      (first : Tells raise act input ms (.ok a) input₁)
      (second : Tells raise (next a) input₁ ms' settled input₂) :
      Tells raise (act >>= next) input (ms ++ ms') settled input₂
  | bind_error {ε α β : Type} {raise : IoError → ε} {act : Dialogue ι ω ε α}
      {next : α → Dialogue ι ω ε β} {input input₁ : ι} {ms : List (Moment ι)} {e : ε}
      (first : Tells raise act input ms (.error e) input₁) :
      Tells raise (act >>= next) input ms (.error e) input₁
  | withError {ε ε' α : Type} {raise : IoError → ε} {act : Dialogue ι ω ε α} {input input' : ι}
      {ms : List (Moment ι)} {settled : Except ε α} (f : ε → ε')
      (inner : Tells raise act input ms settled input') :
      Tells (f ∘ raise) (act.withError f) input ms (settled.mapError f) input'
  | same {ε α : Type} {raise : IoError → ε} {act act' : Dialogue ι ω ε α} {input input' : ι}
      {ms : List (Moment ι)} {settled : Except ε α}
      (agree : ∀ output journal, act ⟨input, output, journal⟩ = act' ⟨input, output, journal⟩)
      (other : Tells raise act' input ms settled input') : Tells raise act input ms settled input'

/-- What becomes of a dialogue that goes through these moments, at this output. -/
def outcomeAt [Sink ω] (raise : IoError → ε) (ms : List (Moment ι)) (settled : Except ε α)
    (input' : ι) (output : ω) (journal : Journal) : EStateM.Result ε (Console ι ω) α :=
  match recite ms output with
  | .ok () output => resultOf settled ⟨input', output, journal⟩
  | .error (e, unread) output => .error (raise e) ⟨unread, output, journal⟩

namespace Tells

variable [Sink ω] {raise : IoError → ε} {act : Dialogue ι ω ε α} {input input' : ι}
  {ms : List (Moment ι)} {settled : Except ε α}

theorem at_output (tells : Tells raise act input ms settled input') (output : ω)
    (journal : Journal) :
    ∃ journal', act ⟨input, output, journal⟩ =
      outcomeAt raise ms settled input' output journal' := by
  induction tells generalizing output journal with
  | silent quiet => exact quiet output journal
  | write text input =>
    refine ⟨journal, ?_⟩
    simp only [Console.write, Console.onOutput, outcomeAt, recite, Utterance.say]
    cases Sink.write text output <;> rfl
  | flush input =>
    refine ⟨journal, ?_⟩
    simp only [Console.flush, Console.onOutput, outcomeAt, recite, Utterance.say]
    cases Sink.flush output <;> rfl
  | @bind _ _ _ raise act next input _ _ ms ms' a settled _ _ ih ih' =>
    obtain ⟨journal₁, first⟩ := ih output journal
    simp only [outcomeAt] at first
    simp only [Bind.bind, EStateM.bind, first, outcomeAt, recite_append]
    cases recite ms output with
    | ok u output₁ =>
      obtain ⟨journal₂, second⟩ := ih' output₁ journal₁
      exact ⟨journal₂, second⟩
    | error e output₁ => exact ⟨journal₁, rfl⟩
  | @bind_error _ _ _ raise act next input _ ms e _ ih =>
    obtain ⟨journal₁, first⟩ := ih output journal
    refine ⟨journal₁, ?_⟩
    simp only [outcomeAt] at first
    simp only [Bind.bind, EStateM.bind, first, outcomeAt]
    cases recite ms output <;> rfl
  | @withError _ _ _ raise act input _ ms settled f _ ih =>
    obtain ⟨journal', done⟩ := ih output journal
    refine ⟨journal', ?_⟩
    simp only [outcomeAt] at done
    simp only [Dialogue.withError, done, outcomeAt]
    cases recite ms output with
    | ok u output' => cases settled <;> rfl
    | error e output' => rfl
  | same agree _ ih =>
    rw [agree]
    exact ih output journal

theorem pure (raise : IoError → ε) (a : α) (input : ι) :
    Tells raise (Pure.pure a : Dialogue ι ω ε α) input [] (.ok a) input :=
  .silent fun _ journal => ⟨journal, rfl⟩

theorem note (raise : IoError → ε) (e : Event) (input : ι) :
    Tells raise (Console.note e : Dialogue ι ω ε Unit) input [] (.ok ()) input :=
  .silent fun _ journal => ⟨journal.note e, rfl⟩

theorem read [Source ι] (input : ι) :
    Tells id (Console.read : Dialogue ι ω IoError _) input [] (Source.read input).1.outcome
      (Source.read input).2 := by
  apply silent
  intro output journal
  refine ⟨journal.noteAll ((Source.read input).1.skipped.map .ignoredInput), ?_⟩
  simp only [Console.read]
  cases (Source.read input).1.outcome <;> rfl

theorem prompt (text : String) (input : ι) :
    Tells id (Console.prompt text : Dialogue ι ω IoError Unit) input
      [⟨input, .write text⟩, ⟨input, .flush⟩] (.ok ()) input :=
  (write text input).bind (flush input)

theorem writeLines (lines : List String) (input : ι) :
    Tells id (Console.writeLines lines : Dialogue ι ω IoError Unit) input
      (lines.map fun line => ⟨input, .write (line ++ "\n")⟩) (.ok ()) input := by
  induction lines with
  | nil => exact pure id () input
  | cons line rest ih =>
    unfold Console.writeLines
    exact (write (line ++ "\n") input).bind ih

theorem after {β : Type} {next : α → Dialogue ι ω ε β} {a : α} {settled : Except ε β}
    {input₁ input₂ : ι} (first : Tells raise act input [] (.ok a) input₁)
    (second : Tells raise (next a) input₁ ms settled input₂) :
    Tells raise (act >>= next) input ms settled input₂ :=
  first.bind second

theorem before {β : Type} {next : α → Dialogue ι ω ε β} {a : α} {settled : Except ε β}
    {input₁ input₂ : ι} (first : Tells raise act input ms (.ok a) input₁)
    (second : Tells raise (next a) input₁ [] settled input₂) :
    Tells raise (act >>= next) input ms settled input₂ := by
  have whole := first.bind second
  rwa [List.append_nil] at whole

end Tells

/-! ### One instruction -/

def Action.utterances : Action → List Utterance
  | .change _ => []
  | .ask _ => [.write "? ", .flush]
  | .print w => [.write (Decimal.Numeral.plain.write w.value ++ "\n")]

namespace Machine

def preface (m : Machine) : List Utterance :=
  if m.trace then [.write (m.announcement ++ "\n")] else []

def utterances (m : Machine) : List Utterance :=
  m.preface ++ match m.plan m.current with
    | .ok action => action.utterances
    | .error _ => []

def moments (m : Machine) (input : ι) : List (Moment ι) := m.utterances.map (.mk input)

variable [Sink ω]

theorem announce_tells (m : Machine) (input : ι) :
    Tells id (m.announce : Dialogue ι ω IoError Unit) input (m.preface.map (.mk input)) (.ok ())
      input := by
  unfold announce preface
  apply (Tells.note id _ input).after
  cases m.trace with
  | true => exact .write (m.announcement ++ "\n") input
  | false => exact .pure id () input

theorem notice_tells (m : Machine) (settled : Except Fault Change) (input : ι) :
    Tells id (m.notice settled : Dialogue ι ω IoError Unit) input [] (.ok ()) input := by
  unfold notice
  split
  · exact .note id _ input
  · exact .note id _ input
  · exact .pure id () input

theorem conclude_tells (m : Machine) (settled : Except Fault Change) (input : ι) :
    Tells id (do m.notice settled; return settled : Dialogue ι ω IoError _) input []
      (.ok settled) input :=
  (m.notice_tells settled input).after (.pure id settled input)

variable [Source ι]

theorem carryOut_tells (m : Machine) {action : Action} (planned : m.plan m.current = .ok action)
    (input : ι) :
    Tells id (m.carryOut action : Dialogue ι ω IoError _) input (action.utterances.map (.mk input))
      (m.reply input).settled (m.reply input).input := by
  cases action with
  | change change =>
    simp only [reply, planned]
    exact .pure id _ input
  | print w =>
    simp only [reply, planned]
    exact (Tells.write _ input).before (.pure id _ input)
  | ask address =>
    simp only [reply, planned]
    apply (Tells.prompt "? " input).before
    have answer : Tells id (Console.read : Dialogue ι ω IoError _) input [] _ _ := .read input
    generalize (Source.read input).1.outcome = outcome at answer ⊢
    cases outcome with
    | error e => exact answer.bind_error
    | ok value => exact answer.before (.pure id _ _)

theorem perform_tells (m : Machine) (input : ι) :
    Tells id (m.perform : Dialogue ι ω IoError _) input (m.moments input)
      (m.reply input).settled (m.reply input).input := by
  unfold perform moments utterances
  rw [List.map_append]
  apply (m.announce_tells input).bind
  cases planned : m.plan m.current with
  | error fault =>
    simp only [reply, planned]
    exact (Tells.pure id _ input).after (m.conclude_tells _ input)
  | ok action =>
    have acted := m.carryOut_tells (ω := ω) planned input
    cases came : (m.reply input).settled with
    | error e =>
      rw [came] at acted
      exact acted.bind_error
    | ok settled =>
      rw [came] at acted
      exact acted.before (m.conclude_tells settled _)

end Machine

end DecimalMachine
