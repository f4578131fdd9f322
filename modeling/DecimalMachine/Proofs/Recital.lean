import DecimalMachine.Proofs.Loaders
import DecimalMachine.Proofs.Report
import DecimalMachine.Proofs.Resumption

/-!
What the loaders, the dump and a complete run say, moment by moment, and what becomes of them at an
output that closes.

A run says what its steps say, a report puts the banner in front and the last lines behind. Each of
them does at any output what its moments come to there.
-/

namespace DecimalMachine

variable {ι ω ψ ε α : Type}

/-! ### Dialogues -/

theorem Reliable.recite [Sink ω] {holds : ω → String → Prop} (reliable : Reliable holds)
    (ms : List (Moment ι)) {output : ω} {text : String} (held : holds output text) :
    ∃ output', DecimalMachine.recite ms output = .ok () output' ∧
      holds output' (text ++ told ms) := by
  induction ms generalizing output text with
  | nil => exact ⟨output, rfl, by simpa [told] using held⟩
  | cons m rest ih =>
    obtain ⟨input, said⟩ := m
    obtain ⟨output₁, first, held₁⟩ : ∃ output₁, said.say output = .ok () output₁ ∧
        holds output₁ (text ++ said.written) := by
      cases said with
      | write more => exact reliable.write more held
      | flush =>
        simp only [Utterance.written, String.append_empty]
        exact reliable.flush held
    obtain ⟨output', taken, held'⟩ := ih held₁
    refine ⟨output', ?_, by simpa [told, String.append_assoc] using held'⟩
    simp only [DecimalMachine.recite, first, taken]

theorem Tells.comes [Sink ω] {holds : ω → String → Prop} (reliable : Reliable holds)
    {raise : IoError → ε} {act : Dialogue ι ω ε α} {input input' : ι} {ms : List (Moment ι)}
    {settled : Except ε α} (tells : Tells raise act input ms settled input') :
    Comes holds act input settled input' (told ms) := by
  intro output journal text held
  obtain ⟨journal', done⟩ := tells.at_output output journal
  obtain ⟨output', taken, held'⟩ := reliable.recite ms held
  exact ⟨output', journal', by simp only [done, outcomeAt, taken], held'⟩

def Console.SameInput (c : Console ι ω) (c' : Console ι ψ) : Prop := c.input = c'.input

theorem alike_of_recited {σ τ : Type} [Sink ω] {raise : IoError → ε} {console : τ → Console ι ω}
    {R : σ → τ → Prop} {ms : List (Moment ι)} {r : EStateM.Result ε σ α}
    {r' : EStateM.Result ε τ α} {o : ω} {holds : ω → String → Prop} {text : String}
    (reliable : Reliable holds) (held : holds o text)
    (recited : AsRecited raise console R ms r o r') :
    Alike R r r' ∧ holds (console (endState r')).output (text ++ told ms) := by
  obtain ⟨o', taken, held'⟩ := reliable.recite ms held
  cases recited with
  | taken takes alike =>
    cases taken.symm.trans takes
    exact ⟨alike, held'⟩
  | refused refuses => cases taken.symm.trans refuses

theorem Tells.asRecited [Sink ω] {raise : IoError → ε} {act : Dialogue ι ω ε α} {input input' : ι}
    {ms : List (Moment ι)} {settled : Except ε α} (tells : Tells raise act input ms settled input')
    {holds : ω → String → Prop} {output output' : ω} {text : String} (reliable : Reliable holds)
    (held : holds output text) (journal journal' : Journal) :
    AsRecited raise id Console.SameInput ms (act ⟨input, output, journal⟩) output'
      (act ⟨input, output', journal'⟩) := by
  obtain ⟨j, done⟩ := tells.at_output output journal
  obtain ⟨j', done'⟩ := tells.at_output output' journal'
  obtain ⟨last, taken, -⟩ := reliable.recite ms held
  simp only [outcomeAt, taken] at done
  rw [done, done', outcomeAt]
  cases takes : recite ms output' with
  | ok u o' => cases settled <;> exact .taken takes (by constructor; rfl)
  | error e o' => exact .refused takes

/-! ### Steps -/

variable [Source ι] [Sink ω] [Sink ψ] {holds : ψ → String → Prop} {text : String}

def Session.moments (s : Session ι ω) : List (Moment ι) :=
  match s.machine.latch with
  | .ok l => l.moments s.console.input
  | .error _ => []

/-- The execution at `o` differs from the other one as `o` refuses what is said. -/
abbrev ExecutedAs (ms : List (Moment ι)) (r : EStateM.Result StepError (Session ι ψ) α) (o : ω)
    (r' : EStateM.Result StepError (Session ι ω) α) : Prop :=
  AsRecited .io Session.console Session.Agrees ms r o r'

theorem running_of_broken {s last : Session ι ω} {e : IoError}
    (failed : step s = .error (.io e) last) : s.machine.state = .running := by
  by_cases running : s.machine.state = .running
  · exact running
  · cases (step_stopped running).symm.trans failed

theorem step_recited (reliable : Reliable holds) {s : Session ι ψ} {t : Session ι ω}
    (held : holds s.console.output text) (agrees : s.Agrees t) :
    ExecutedAs s.moments (step s) t.console.output (step t) := by
  cases latched : s.machine.latch with
  | error e =>
    rw [Session.step_of_unlatched latched,
      Session.step_of_unlatched (s := t) (agrees.machine ▸ latched), Session.moments, latched]
    exact .taken rfl (.error agrees)
  | ok l =>
    obtain ⟨journal, stepped⟩ := step_at_output latched
    obtain ⟨journal', stepped'⟩ := step_at_output (s := t) (agrees.machine ▸ latched)
    obtain ⟨o, taken, -⟩ := reliable.recite (l.moments s.console.input) held
    simp only [taken] at stepped
    rw [← agrees.input] at stepped'
    rw [stepped, stepped', Session.moments, latched]
    cases takes : recite (l.moments s.console.input) t.console.output with
    | error e o' => exact .refused takes
    | ok u o' =>
      apply AsRecited.taken
      · rw [l.endState_ended]
        exact takes
      · rcases (l.reply s.console.input).settled with e | fault | change
        · exact .error ⟨rfl, rfl⟩
        · exact .error ⟨rfl, rfl⟩
        · exact .ok ⟨rfl, rfl⟩

theorem Steps.recited (reliable : Reliable holds) {s after : Session ι ψ}
    {passed : List (Session ι ψ)} (steps : Steps s passed after) {t : Session ι ω}
    (held : holds s.console.output text) (agrees : s.Agrees t) :
    (∃ passed' after', Steps t passed' after' ∧ passed'.length = passed.length ∧
      after.Agrees after' ∧
      recite (passed.flatMap Session.moments) t.console.output = .ok () after'.console.output) ∨
    ∃ passed' stuck e last, Steps t passed' stuck ∧ passed'.length < passed.length ∧
      step stuck = .error (.io e) last ∧
      recite (passed.flatMap Session.moments) t.console.output =
        .error (e, last.console.input) last.console.output := by
  induction steps generalizing t text with
  | none => exact .inl ⟨[], t, .none t, rfl, agrees, rfl⟩
  | @more s middle after i passed done rest ih =>
    have first := step_recited reliable held agrees
    have held' := Session.step_writes reliable held
    rw [done] at first held'
    rw [List.flatMap_cons, recite_append]
    generalize stepped : step t = r at first
    cases first with
    | taken takes alike =>
      cases alike with
      | @ok _ _ middle' agrees' =>
        simp only [takes, endState]
        rcases ih held' agrees' with ⟨passed', after', steps', length, agrees'', taken⟩ |
          ⟨passed', stuck, e, last, steps', fewer, failed, refused⟩
        · exact .inl ⟨t :: passed', after', .more stepped steps', congrArg Nat.succ length,
            agrees'', taken⟩
        · exact .inr ⟨t :: passed', stuck, e, last, .more stepped steps', Nat.succ_lt_succ fewer,
            failed, refused⟩
    | refused refuses =>
      simp only [refuses]
      exact .inr ⟨[], t, _, _, .none t, Nat.succ_pos _, stepped, rfl⟩

theorem Course.recited (reliable : Reliable holds) {s : Session ι ψ}
    {tried : List (Session ι ψ)} {r : EStateM.Result StepError (Session ι ψ) UInt64}
    (course : Course s tried r) {t : Session ι ω} (held : holds s.console.output text)
    (agrees : s.Agrees t) :
    ∃ tried' r', Course t tried' r' ∧ tried'.length ≤ tried.length ∧
      (tried'.length < tried.length → IsFinal r') ∧ (IsFinal r → IsFinal r') ∧
      ExecutedAs (tried.flatMap Session.moments) r t.console.output r' := by
  have room {n : Nat} (fits : n ≤ s.machine.countLeft) : n ≤ t.machine.countLeft :=
    agrees.machine ▸ fits
  cases course with
  | @completed _ after k steps fits count =>
    rcases steps.recited reliable held agrees with
      ⟨passed', after', steps', length, agrees', taken⟩ |
      ⟨passed', stuck, e, last, steps', fewer, failed, refused⟩
    · refine ⟨passed', .ok k after', .completed steps' (room (length ▸ fits)) (length ▸ count),
        Nat.le_of_eq length, fun fewer => absurd length (Nat.ne_of_lt fewer), ?_,
        .taken taken (.ok agrees')⟩
      simp only [IsFinal, agrees'.machine]
      exact id
    · refine ⟨passed' ++ [stuck], .error _ last,
        .failed steps' (room (by omega)) (running_of_broken failed) failed, ?_, fun _ => trivial,
        fun _ => trivial, .refused refused⟩
      rw [List.length_append]
      exact fewer
  | @failed passed stuck last e steps fits running failed =>
    rw [List.flatMap_append, List.flatMap_cons, List.flatMap_nil, List.append_nil]
    rcases steps.recited reliable held agrees with
      ⟨passed', stuck', steps', length, agrees', taken⟩ |
      ⟨passed', stuck', e', last', steps', fewer, failed', refused⟩
    · have final := step_recited reliable (steps.writes reliable held) agrees'
      have whole : recite (passed.flatMap Session.moments ++ stuck.moments) t.console.output =
          recite stuck.moments stuck'.console.output := by
        rw [recite_append, taken]
      have running' : stuck'.machine.state = .running := agrees'.machine ▸ running
      rw [failed] at final
      generalize stepped : step stuck' = r' at final
      cases final with
      | taken takes alike =>
        cases alike with
        | @error _ _ last' agrees'' =>
          exact ⟨passed' ++ [stuck'], .error e last',
            .failed steps' (room (length ▸ fits)) running' stepped, by simp [length],
            fun _ => trivial, fun _ => trivial, .taken (whole.trans takes) (.error agrees'')⟩
      | refused refuses =>
        exact ⟨passed' ++ [stuck'], .error _ _,
          .failed steps' (room (length ▸ fits)) running' stepped, by simp [length],
          fun _ => trivial, fun _ => trivial, .refused (whole.trans refuses)⟩
    · refine ⟨passed' ++ [stuck'], .error _ last',
        .failed steps' (room (by omega)) (running_of_broken failed') failed', ?_, fun _ => trivial,
        fun _ => trivial, .refused ?_⟩
      · simp only [List.length_append, List.length_singleton]
        omega
      · rw [recite_append, refused]

theorem runConfigured_recited (reliable : Reliable holds) {config : Config} {s : Session ι ψ}
    {r : EStateM.Result StepError (Session ι ψ) UInt64} (ran : runConfigured config s = some r)
    (held : holds s.console.output text) :
    ∃ tried, Course s tried r ∧ ∀ t : Session ι ω, s.Agrees t →
      ∃ r', runConfigured config t = some r' ∧
        ExecutedAs (tried.flatMap Session.moments) r t.console.output r' := by
  unfold runConfigured at ran ⊢
  cases configured : config.maxCycles with
  | some limit =>
    simp only [configured, Option.some.injEq] at ran ⊢
    obtain ⟨tried, course, bound, stops⟩ := runLimited_eq_iff.mp ran
    refine ⟨tried, course, fun t agrees => ?_⟩
    obtain ⟨tried', r', course', fewer, early, final, recited⟩ :=
      course.recited reliable held agrees
    refine ⟨r', ?_, recited⟩
    rw [agrees.machine] at bound stops
    refine runLimited_eq_iff.mpr ⟨tried', course', by omega, fun short => ?_⟩
    rcases Nat.lt_or_eq_of_le fewer with less | same
    · exact early less
    · exact final (stops (same ▸ short))
  | none =>
    simp only [configured] at ran ⊢
    obtain ⟨tried, course, ended⟩ := run_eq_iff.mp ran
    refine ⟨tried, course, fun t agrees => ?_⟩
    obtain ⟨tried', r', course', -, -, final, recited⟩ := course.recited reliable held agrees
    exact ⟨r', run_eq_iff.mpr ⟨tried', course', final ended⟩, recited⟩

/-! ### Reports -/

omit [Source ι] in
theorem onConsole_recited {s : Session ι ψ} {t : Session ι ω} {act : Dialogue ι ψ IoError α}
    {act' : Dialogue ι ω IoError α} {ms : List (Moment ι)} {settled : Except IoError α} {input : ι}
    (reliable : Reliable holds) (held : holds s.console.output text) (agrees : s.Agrees t)
    (tells : Tells id act s.console.input ms settled input)
    (tells' : Tells id act' s.console.input ms settled input) :
    ExecutedAs ms (Session.onConsole act s) t.console.output (Session.onConsole act' t) := by
  obtain ⟨m, c⟩ := s
  obtain ⟨m', c'⟩ := t
  obtain ⟨same, unread⟩ := agrees
  obtain ⟨j, done⟩ := tells.at_output c.output c.journal
  obtain ⟨j', done'⟩ := tells'.at_output c'.output c'.journal
  obtain ⟨last, taken, -⟩ := reliable.recite ms held
  simp only [outcomeAt, taken] at done
  rw [show c.input = c'.input from unread] at done'
  simp only [Session.onConsole, done, done', outcomeAt]
  cases takes : recite ms c'.output with
  | ok u o' =>
    cases settled with
    | ok a => exact .taken takes (.ok ⟨same, rfl⟩)
    | error e => exact .taken takes (.error ⟨same, rfl⟩)
  | error e o' => exact .refused takes

def Outcome.moments (outcome : Outcome) (m : Machine) (input : ι) : List (Moment ι) :=
  (outcome.lines ++ m.dumpLines outcome.pages.1 outcome.pages.2).map
    (fun line => ⟨input, .write (line ++ "\n")⟩) ++ [⟨input, .flush⟩]

omit [Source ι] in
theorem closing_tells (outcome : Outcome) (m : Machine) (input : ι) : Tells id (do
    Console.writeLines (outcome.lines ++ m.dumpLines outcome.pages.1 outcome.pages.2)
    Console.flush
    return outcome : Dialogue ι ω IoError Outcome) input (outcome.moments m input) (.ok outcome)
    input :=
  (Tells.writeLines _ _).bind ((Tells.flush _).before (.pure id outcome _))

def closingMoments (r : EStateM.Result StepError (Session ι ω) UInt64) : List (Moment ι) :=
  match reportedAs r with
  | some outcome => outcome.moments (endState r).machine (endState r).console.input
  | none => []

omit [Source ι] in
theorem closeReport_recited (reliable : Reliable holds) {s : Session ι ψ} {t : Session ι ω}
    (held : holds s.console.output text) (agrees : s.Agrees t) (outcome : Outcome) :
    ExecutedAs (outcome.moments s.machine s.console.input) (closeReport outcome s) t.console.output
      (closeReport outcome t) := by
  simp only [closeReport, ← agrees.machine]
  exact onConsole_recited reliable held agrees (closing_tells _ _ _) (closing_tells _ _ _)

omit [Source ι] in
theorem reportResult_recited (reliable : Reliable holds)
    {r : EStateM.Result StepError (Session ι ψ) UInt64}
    {r' : EStateM.Result StepError (Session ι ω) UInt64}
    (held : holds (endState r).console.output text) (alike : Alike Session.Agrees r r') :
    ExecutedAs (closingMoments r) (reportResult r) (endState r').console.output
      (reportResult r') := by
  cases alike with
  | @ok k last last' agrees =>
    simp only [reportResult, ← agrees.machine]
    exact closeReport_recited reliable held agrees _
  | @error e last last' agrees =>
    cases e with
    | fault fault => exact closeReport_recited reliable held agrees (.faulted fault)
    | _ => exact .taken rfl (.error agrees)

def Session.banner (s : Session ι ω) : Moment ι :=
  ⟨s.console.input, .write "*** Program execution begins ***\n"⟩

omit [Source ι] in
theorem openReport_recited (reliable : Reliable holds) (config : Config) {s : Session ι ψ}
    {t : Session ι ω} (held : holds s.console.output text) (agrees : s.Agrees t) :
    ExecutedAs [s.banner] (openReport config s) t.console.output (openReport config t) := by
  have configured : (s.configured config).Agrees (t.configured config) := by
    refine ⟨?_, agrees.input⟩
    simp only [Session.configured, agrees.machine]
  have tells {χ : Type} [Sink χ] : Tells id
      (Console.writeLine "*** Program execution begins ***" : Dialogue ι χ IoError Unit)
      s.console.input [s.banner] (.ok ()) s.console.input := .write _ _
  rw [openReport_eq, openReport_eq]
  exact onConsole_recited (s := s.configured config) reliable held configured tells tells

/-- The moments of a complete run: those of the banner, of the tried steps, and of the last
lines. -/
inductive ReportTells (config : Config) (s : Session ι ω)
    (r : EStateM.Result StepError (Session ι ω) Outcome) : List (Moment ι) → Prop where
  | report {opened : Session ι ω} {tried : List (Session ι ω)}
      {ended : EStateM.Result StepError (Session ι ω) UInt64}
      (opening : openReport config s = .ok () opened)
      (ran : runConfigured config opened = some ended) (course : Course opened tried ended)
      (reported : reportResult ended = r) :
      ReportTells config s r
        ([s.banner] ++ (tried.flatMap Session.moments ++ closingMoments ended))

theorem execute_recited (reliable : Reliable holds) {config : Config} {s : Session ι ψ}
    {r : EStateM.Result StepError (Session ι ψ) Outcome} (returned : execute config s = some r)
    (held : holds s.console.output text) :
    ∃ ms, ReportTells config s r ms ∧ ∀ t : Session ι ω, s.Agrees t →
      ∃ r', execute config t = some r' ∧ ExecutedAs ms r t.console.output r' := by
  obtain ⟨opened, opening, machine, input, held'⟩ := openReport_comes reliable held config
  rw [execute_of_opened opening] at returned
  obtain ⟨ended, ran, rfl⟩ := Option.map_eq_some_iff.mp returned
  obtain ⟨tried, course, elsewhere⟩ := runConfigured_recited (ω := ω) reliable ran held'
  refine ⟨_, .report opening ran course rfl, fun t agrees => ?_⟩
  have first := openReport_recited reliable config held agrees
  rw [opening] at first
  generalize opening' : openReport config t = r₁ at first
  cases first with
  | taken takes alike =>
    cases alike with
    | @ok _ _ opened' agrees' =>
      obtain ⟨ended', ran', recited⟩ := elsewhere opened' agrees'
      refine ⟨reportResult ended', ?_, .after takes ?_⟩
      · rw [execute_of_opened opening', ran', Option.map_some]
      · cases recited with
        | taken takes' alike =>
          exact .after takes' (reportResult_recited reliable (course.writes reliable held') alike)
        | refused refuses => exact .refused_first _ refuses
  | @refused e last refuses =>
    refine ⟨.error (.io e) last, ?_, .refused_first _ refuses⟩
    simp only [execute, opening']

/-! ### Tidiness -/

omit [Source ι] in
theorem Machine.tidy_moments (m : Machine) (input : ι) : ∀ p ∈ m.moments input, p.said.Tidy := by
  unfold moments utterances preface
  simp only [List.mem_map]
  rintro _ ⟨said, mem, rfl⟩
  rcases List.mem_append.mp mem with mem | mem
  · split at mem
    · cases List.mem_singleton.mp mem
      exact .line m.flat_announcement
    · cases mem
  · split at mem
    · rename_i action _
      cases action with
      | change change => cases mem
      | print w =>
        cases List.mem_singleton.mp mem
        exact .line (.numeral _ _)
      | ask address =>
        simp only [Action.utterances, List.mem_cons, List.not_mem_nil, or_false] at mem
        rcases mem with rfl | rfl
        · exact .start (by decide) (by decide)
        · exact .flush
    · cases mem

omit [Source ι] [Sink ω] in
theorem Session.tidy_moments (s : Session ι ω) : ∀ p ∈ s.moments, p.said.Tidy := by
  unfold Session.moments
  split
  · exact Machine.tidy_moments _ _
  · nofun

omit [Source ι] in
theorem Outcome.tidy_moments (outcome : Outcome) (m : Machine) (input : ι) :
    ∀ p ∈ outcome.moments m input, p.said.Tidy := by
  simp only [moments, List.forall_mem_append, List.mem_map]
  refine ⟨?_, ?_⟩
  · rintro _ ⟨line, mem, rfl⟩
    rcases List.mem_append.mp mem with mem | mem
    · exact .line (outcome.flat_lines line mem)
    · exact .line (m.flat_dumpLines _ _ line mem)
  · simp only [List.forall_mem_cons]
    exact ⟨.flush, nofun⟩

theorem ReportTells.tidy {config : Config} {s : Session ι ω}
    {r : EStateM.Result StepError (Session ι ω) Outcome} {ms : List (Moment ι)}
    (tells : ReportTells config s r ms) : ∀ p ∈ ms, p.said.Tidy := by
  cases tells with
  | @report opened tried ended opening ran course reported =>
    simp only [List.forall_mem_append, List.forall_mem_cons, List.mem_flatMap]
    refine ⟨⟨.line (by decide : Flat "*** Program execution begins ***"), nofun⟩, ?_, ?_⟩
    · rintro p ⟨u, -, mem⟩
      exact u.tidy_moments p mem
    · unfold closingMoments
      split
      · exact Outcome.tidy_moments _ _ _
      · nofun

/-! ### Limited outputs -/

omit [Source ι] in
theorem dialogue_cutAfter {raise : IoError → ε} {act : Dialogue ι Transcript ε α} {input input' : ι}
    {ms : List (Moment ι)} {settled : Except ε α} (tells : Tells raise act input ms settled input')
    (tidy : ∀ m ∈ ms, m.said.Tidy) (n : Nat) (journal : Journal) :
    CutAfter n raise id Console.SameInput ms (act ⟨input, {}, journal⟩)
      (act ⟨input, { limit := some n }, journal⟩) := by
  have held : Transcript.Holds {} "" := ⟨rfl, rfl⟩
  have alone : AsRecited raise id Console.SameInput ms (act ⟨input, {}, journal⟩)
      ({} : Transcript) (act ⟨input, {}, journal⟩) :=
    tells.asRecited Transcript.reliable held journal journal
  have text := (alike_of_recited Transcript.reliable held alone).2.2
  rw [String.empty_append] at text
  exact cutAfter_of_recited tidy text (tells.asRecited Transcript.reliable held journal journal)

theorem execute_cutAfter {config : Config} {m : Machine} {input : ι} {journal : Journal}
    {r : EStateM.Result StepError (Session ι Transcript) Outcome}
    (returned : execute config ⟨m, ⟨input, {}, journal⟩⟩ = some r) (n : Nat) :
    ∃ ms r', ReportTells config ⟨m, ⟨input, {}, journal⟩⟩ r ms ∧
      execute config ⟨m, ⟨input, { limit := some n }, journal⟩⟩ = some r' ∧
      CutAfter n .io Session.console Session.Agrees ms r r' := by
  have held : Transcript.Holds {} "" := ⟨rfl, rfl⟩
  obtain ⟨ms, tells, elsewhere⟩ :=
    execute_recited (ω := Transcript) Transcript.reliable returned held
  obtain ⟨_, same, alone⟩ := elsewhere ⟨m, ⟨input, {}, journal⟩⟩ ⟨rfl, rfl⟩
  obtain ⟨r', returned', recited⟩ :=
    elsewhere ⟨m, ⟨input, { limit := some n }, journal⟩⟩ ⟨rfl, rfl⟩
  cases returned.symm.trans same
  have text := (alike_of_recited Transcript.reliable held alone).2.2
  rw [String.empty_append] at text
  exact ⟨ms, r', tells, returned', cutAfter_of_recited tells.tidy text recited⟩

/-- An output that closes behind a line truncates what a complete run, a dump or a loader says, and
does nothing else: no input is read beyond what had been read in front of the next write. -/
theorem closed_output_truncates (n : Nat) (m : Machine) (journal : Journal) :
    (∀ config (input : ι) r, execute config ⟨m, ⟨input, {}, journal⟩⟩ = some r →
      ∃ ms r', ReportTells config ⟨m, ⟨input, {}, journal⟩⟩ r ms ∧
        execute config ⟨m, ⟨input, { limit := some n }, journal⟩⟩ = some r' ∧
        CutAfter n .io Session.console Session.Agrees ms r r') ∧
    (∀ first last (input : ι), ∃ ms,
      Tells id (Console.writeLines (m.dumpLines first last) : Dialogue _ Transcript _ _) input ms
        (.ok ()) input ∧
      CutAfter n id id Console.SameInput ms
        (Console.writeLines (m.dumpLines first last) ⟨input, {}, journal⟩)
        (Console.writeLines (m.dumpLines first last) ⟨input, { limit := some n }, journal⟩)) ∧
    (∀ input : Program.Keyboard, ∃ ms settled input',
      Tells id (Program.enter : Dialogue _ Transcript _ _) input ms settled input' ∧
      CutAfter n id id Console.SameInput ms (Program.enter ⟨input, {}, journal⟩)
        (Program.enter ⟨input, { limit := some n }, journal⟩)) ∧
    (∀ files (input : Program.Keyboard), ∃ ms settled input',
      Tells .io (Program.loadPrompted files : Dialogue _ Transcript _ _) input ms settled input' ∧
      CutAfter n .io id Console.SameInput ms (Program.loadPrompted files ⟨input, {}, journal⟩)
        (Program.loadPrompted files ⟨input, { limit := some n }, journal⟩)) := by
  refine ⟨fun config input r returned => execute_cutAfter returned n, ?_, ?_, ?_⟩
  · intro first last input
    refine ⟨_, .writeLines _ input, dialogue_cutAfter (.writeLines _ input) ?_ n journal⟩
    simp only [List.mem_map]
    rintro _ ⟨line, mem, rfl⟩
    exact .line (m.flat_dumpLines first last line mem)
  · intro input
    obtain ⟨ms, settled, input', tells, tidy⟩ := Program.enter_speaks (ω := Transcript) input
    exact ⟨ms, settled, input', tells, dialogue_cutAfter tells tidy n journal⟩
  · intro files input
    obtain ⟨ms, settled, input', tells, tidy⟩ :=
      Program.loadPrompted_speaks (ω := Transcript) files input
    exact ⟨ms, settled, input', tells, dialogue_cutAfter tells tidy n journal⟩

-- The session of `cutShort` at an output that closes behind two lines.
def twoLines : Session Script Transcript :=
  ⟨cutShort.machine, ⟨cutShort.console.input, { limit := some 2 }, {}⟩⟩

theorem closed_output_truncates_twoLines :
    ∃ r last, execute ⟨false, none⟩ cutShort.alone = some r ∧
      execute ⟨false, none⟩ twoLines = some (.error (.io .outputClosed) last) ∧
      last.console.output.text = Text.throughLine 2 (endState r).console.output.text ∧
      last.console.input.values = [7, 8] := by
  obtain ⟨r, whole⟩ : ∃ r, execute ⟨false, none⟩ cutShort.alone = some r := ⟨_, by rfl⟩
  obtain ⟨last, limited, unread⟩ : ∃ last,
      execute ⟨false, none⟩ twoLines = some (.error (.io .outputClosed) last) ∧
        last.console.input.values = [7, 8] := ⟨_, by rfl, by rfl⟩
  obtain ⟨ms, r', -, limited', cut⟩ :=
    (closed_output_truncates 2 cutShort.machine {}).1 ⟨false, none⟩ cutShort.console.input r whole
  cases limited.symm.trans limited'
  exact ⟨r, last, whole, limited, cut.accepted, unread⟩

end DecimalMachine
