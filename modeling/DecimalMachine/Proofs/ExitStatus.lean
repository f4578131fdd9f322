import DecimalMachine.CommandLine.Command
import DecimalMachine.Proofs.Delivery
import DecimalMachine.Proofs.Files
import DecimalMachine.Proofs.Lines

/-!
The exit status of the command line, and what it says of what happened.

`EndsFor` lists the ways in which the process can end, each with what has been written by then. A
loaded program fits the memory of a fresh machine, so that nothing but the console can fail between
loading and the report. A report is delivered once it is whole on the output and the machine is in
the file that was asked for.
-/

namespace DecimalMachine

/-! ### Loaded programs fit -/

namespace Program

theorem scan_length (room : Nat) (tokens : List String) :
    (scan room tokens).program.words.length ≤ room := by
  induction tokens generalizing room with
  | nil => simp [scan]
  | cons token rest ih =>
    cases room with
    | zero => simp [scan]
    | succ room =>
      simp only [scan]
      split
      · exact ih (room + 1)
      · split
        · exact Nat.succ_le_succ (ih room)
        · exact ih (room + 1)

theorem loadFile_length {ι ω : Type} {files : FileReader} {path : String} {program : Program}
    {c c' : Console ι ω} (loaded : loadFile files path c = .ok program c') :
    program.words.length ≤ capacity := by
  unfold loadFile at loaded
  cases read : files path with
  | error e =>
    rw [read] at loaded
    cases loaded
  | ok bytes =>
    cases decoded : Text.ofUtf8? bytes with
    | none =>
      simp only [read, decoded] at loaded
      cases loaded
    | some text =>
      simp only [read, decoded] at loaded
      obtain ⟨_, _, -, loaded⟩ := bind_eq_ok loaded
      obtain ⟨_, _, -, loaded⟩ := bind_eq_ok loaded
      cases loaded
      exact scan_length capacity _

variable {ω : Type} [Sink ω]

theorem enterFrom_length {words all : List Word} {lines : Keyboard} {c c' : Console Keyboard ω}
    (room : words.length ≤ capacity) (entered : enterFrom words lines c = .ok all c') :
    all.length ≤ capacity := by
  induction lines generalizing words c with
  | nil =>
    unfold enterFrom at entered
    split at entered
    · cases entered
      exact room
    · obtain ⟨_, _, -, entered⟩ := bind_eq_ok entered
      obtain ⟨_, _, -, entered⟩ := bind_eq_ok entered
      cases entered
      exact room
  | cons line rest ih =>
    unfold enterFrom at entered
    split at entered
    · cases entered
      exact room
    · obtain ⟨_, _, -, entered⟩ := bind_eq_ok entered
      obtain ⟨_, _, -, entered⟩ := bind_eq_ok entered
      cases decoded : Text.ofUtf8? line with
      | none =>
        simp only [decoded] at entered
        cases entered
      | some text =>
        simp only [decoded] at entered
        cases entry : Entry.ofText text with
        | word w =>
          simp only [entry] at entered
          exact ih (by rw [List.length_append, List.length_singleton]; omega) entered
        | sentinel =>
          simp only [entry] at entered
          cases entered
          exact room
        | notInteger | outOfRange =>
          simp only [entry] at entered
          obtain ⟨_, _, -, entered⟩ := bind_eq_ok entered
          exact ih room entered

theorem enter_length {program : Program} {c c' : Console Keyboard ω}
    (entered : enter c = .ok program c') : program.words.length ≤ capacity := by
  obtain ⟨_, _, -, entered⟩ := bind_eq_ok entered
  obtain ⟨_, _, -, entered⟩ := bind_eq_ok entered
  obtain ⟨words, _, typed, entered⟩ := bind_eq_ok entered
  obtain ⟨_, _, -, entered⟩ := bind_eq_ok entered
  cases entered
  exact enterFrom_length (Nat.zero_le _) typed

theorem withError_ok {ι ω ε ε' α : Type} {f : ε → ε'} {act : Dialogue ι ω ε α} {a : α}
    {c c' : Console ι ω} (done : act.withError f c = .ok a c') : act c = .ok a c' := by
  unfold Dialogue.withError at done
  split at done
  · cases done
    assumption
  · cases done

theorem loadPrompted_length {files : FileReader} {program : Program} {c c' : Console Keyboard ω}
    (loaded : loadPrompted files c = .ok program c') : program.words.length ≤ capacity := by
  obtain ⟨path, _, -, loaded⟩ := bind_eq_ok loaded
  cases path with
  | some path => exact loadFile_length loaded
  | none => exact enter_length (withError_ok loaded)

end Program

theorem Machine.fresh_loads {program : List Word} (fits : program.length ≤ Program.capacity) :
    ∃ machine, Machine.fresh.loadProgram program = .placed machine ∧ machine.state = .running ∧
      machine.cycles = 0 ∧ machine.Sound := by
  have size : Machine.fresh.memory.cells.size = 10000 := Array.size_replicate
  obtain ⟨memory, loaded, -⟩ := loadProgram_of_fits size (Nat.le_trans fits (by decide))
  exact ⟨_, loaded, rfl, rfl, Machine.Sound.fresh.loaded loaded⟩

/-! ### Runs of a sound machine -/

theorem onConsole_error {ι ω α : Type} {act : Dialogue ι ω IoError α} {s last : Session ι ω}
    {e : StepError} (failed : Session.onConsole act s = .error e last) : ∃ f, e = .io f := by
  obtain ⟨m, c⟩ := s
  simp only [Session.onConsole] at failed
  split at failed
  · cases failed
  · cases failed
    exact ⟨_, rfl⟩

variable {ι ω : Type} [Source ι] [Sink ω]

theorem Machine.Sound.step_error {s last : Session ι ω} {e : StepError} (sound : s.machine.Sound)
    (running : s.machine.state = .running) (failed : step s = .error e last) :
    (∃ f, e = .io f) ∨ ∃ fault, e = .fault fault := by
  obtain ⟨l, latched⟩ := sound.latches running
  obtain ⟨m, c⟩ := s
  have ended := step_cases m c
  rw [failed] at ended
  cases ended with
  | stopped stopped => exact absurd running stopped
  | unreadable running unreadable =>
    cases latched.symm.trans (Machine.latch_of_unreadable running unreadable)
  | broken => exact .inl ⟨_, rfl⟩
  | faulted => exact .inr ⟨_, rfl⟩

omit [Source ι] in
theorem Machine.Sound.opened {config : Config} {s opened : Session ι ω} (sound : s.machine.Sound)
    (opening : openReport config s = .ok () opened) : opened.machine.Sound := by
  rw [openReport_ok opening]
  exact sound.withTrace config.trace

theorem execute_error {config : Config} {s last : Session ι ω} {e : StepError}
    (sound : s.machine.Sound) (returned : execute config s = some (.error e last)) :
    ∃ f, e = .io f := by
  cases opening : openReport config s with
  | error e' opened =>
    simp only [execute, opening, Option.some.injEq] at returned
    cases returned
    rw [openReport_eq] at opening
    exact onConsole_error opening
  | ok u opened =>
    rw [execute_of_opened opening] at returned
    obtain ⟨r, ran, reported⟩ := Option.map_eq_some_iff.mp returned
    obtain ⟨tried, course⟩ := runConfigured_course ran
    cases course with
    | completed => exact onConsole_error reported
    | failed steps room running failed =>
      rcases (steps.sound (sound.opened opening)).step_error running failed with
        ⟨f, rfl⟩ | ⟨fault, rfl⟩
      · cases reported
        exact ⟨f, rfl⟩
      · exact onConsole_error reported

/-- A run that is reported as suspended has taken as many steps as the limit allows. -/
theorem execute_limit {config : Config} {s last : Session ι ω} {n : UInt64}
    (running : s.machine.state = .running) (start : s.machine.cycles = 0)
    (returned : execute config s = some (.ok (.cycleLimit n) last)) :
    config.maxCycles = some n ∧ last.machine.state = .running ∧ last.machine.cycles = n := by
  obtain ⟨opened, r, opening, ran, reported⟩ := execute_ok returned
  obtain ⟨opened', opening', tells⟩ :=
    execute_tells returned fun fault faulted => nomatch running.symm.trans faulted
  obtain ⟨still, ⟨limit, configured⟩, -⟩ := tells.limited n rfl
  obtain ⟨reported_as, machine⟩ := reportResult_ok reported
  have cycles : opened.machine.cycles = 0 := by
    rw [openReport_ok opening]
    exact start
  have left : opened.machine.countLeft = 18446744073709551615 := by
    rw [Machine.countLeft, cycles]
    rfl
  rw [machine] at still
  simp only [runConfigured, configured, Option.some.injEq] at ran
  cases r with
  | error e after => cases e <;> cases reported_as
  | ok k after =>
    simp only [endState] at machine still
    simp only [reportedAs, still, Outcome.ofState, Option.some.injEq, Outcome.cycleLimit.injEq]
      at reported_as
    subst reported_as
    obtain ⟨passed, steps, bound, stops, count⟩ := runLimited_ok_iff.mp ran
    have below := limit.toNat_lt
    have full : passed.length = limit.toNat := by
      by_contra short
      exact stops (by omega) still
    have same : k = limit := UInt64.toNat_inj.mp (count.trans full)
    have counted := (steps.cycles_le (by omega)).2
    refine ⟨by rw [configured, same], by rw [machine, still], UInt64.toNat_inj.mp ?_⟩
    rw [machine, counted, cycles, count]
    exact Nat.zero_add _

/-! ### The ways to end -/

namespace Command

inductive Started (request : RunRequest) (stdin : List UInt8) (files : Program.FileReader)
    (output : Transcript) : Session IntegerStream Transcript → Prop where
  | start {program : Program} {c c' : Console Program.Keyboard Transcript} {machine : Machine}
      (loaded : load request files (console stdin output) = .ok program c)
      (announced : program.announce c = .ok () c')
      (placed : Machine.fresh.loadProgram program.words = .placed machine) :
      Started request stdin files output ⟨machine, ⟨⟨[], c'.input⟩, c'.output, c'.journal⟩⟩

/-- The request was run to the end of its report. -/
def Reported (request : RunRequest) (stdin : List UInt8) (files : Program.FileReader)
    (output : Transcript) (outcome : Outcome) (last : Session IntegerStream Transcript) : Prop :=
  ∃ session, Started request stdin files output session ∧
    execute request.config session = some (.ok outcome last)

inductive RunEnds (request : RunRequest) (stdin : List UInt8) (files : Program.FileReader)
    (output : Transcript) : Ending → Prop where
  | unloaded {e : Program.LoadError} {c : Console Program.Keyboard Transcript}
      (failed : load request files (console stdin output) = .error e c) :
      RunEnds request stdin files output
        (.failed c.output ("Failed to load program: " ++ e.message))
  | unannounced {program : Program} {c c' : Console Program.Keyboard Transcript} {e : IoError}
      (loaded : load request files (console stdin output) = .ok program c)
      (refused : program.announce c = .error e c') :
      RunEnds request stdin files output (.failed c'.output ("Output error: " ++ e.message))
  | broken {session last : Session IntegerStream Transcript} {e : IoError}
      (started : Started request stdin files output session)
      (failed : execute request.config session = some (.error (.io e) last)) :
      RunEnds request stdin files output
        (.failed last.console.output ("Execution error: " ++ (StepError.io e).message))
  | reported {outcome : Outcome} {last : Session IntegerStream Transcript}
      (reported : Reported request stdin files output outcome last) :
      RunEnds request stdin files output (endingOfRun request (.ok outcome last))

theorem load_length {request : RunRequest} {files : Program.FileReader} {program : Program}
    {c c' : Console Program.Keyboard Transcript} (loaded : load request files c = .ok program c') :
    program.words.length ≤ Program.capacity := by
  unfold load at loaded
  cases named : request.program with
  | some path =>
    simp only [named] at loaded
    exact Program.loadFile_length loaded
  | none =>
    simp only [named] at loaded
    exact Program.loadPrompted_length loaded

variable {request : RunRequest} {stdin : List UInt8} {files : Program.FileReader}
  {output : Transcript}

theorem Started.fresh {session : Session IntegerStream Transcript}
    (started : Started request stdin files output session) :
    session.machine.state = .running ∧ session.machine.cycles = 0 ∧ session.machine.Sound := by
  cases started with
  | start loaded announced placed =>
    obtain ⟨machine, placed', running, cycles, sound⟩ := Machine.fresh_loads (load_length loaded)
    cases placed.symm.trans placed'
    exact ⟨running, cycles, sound⟩

theorem run_of_started {session : Session IntegerStream Transcript}
    (started : Started request stdin files output session) :
    run request stdin files output =
      (execute request.config session).map (endingOfRun request) := by
  cases started with
  | start loaded announced placed => simp only [run, loaded, announced, runProgram, placed]

theorem run_of_ends {ending : Ending} (ends : RunEnds request stdin files output ending) :
    run request stdin files output = some ending := by
  cases ends with
  | unloaded failed => simp only [run, failed]
  | unannounced loaded refused => simp only [run, loaded, refused]
  | broken started failed =>
    rw [run_of_started started, failed]
    rfl
  | reported reported =>
    obtain ⟨session, started, returned⟩ := reported
    rw [run_of_started started, returned]
    rfl

/-! ### The command line -/

inductive Cause where
  | misused
  | informed
  | listed
  | unprinted
  | unloaded
  | unconfirmed
  | broken
  | unsaved
  | halted
  | faulted
  | limited

def Cause.status : Cause → Nat
  | .misused => 2
  | .informed => 0
  | .listed => 0
  | .unprinted => 101
  | .unloaded => 1
  | .unconfirmed => 1
  | .broken => 1
  | .unsaved => 1
  | .halted => 0
  | .faulted => 2
  | .limited => 3

def Cause.all : List Cause := [.faulted, .misused, .limited, .halted, .listed, .informed,
  .unloaded, .unconfirmed, .broken, .unsaved, .unprinted]

/-- The text was written by path once the output held `report`: the file that the path leads to
holds it, and nothing else has changed, or a device took it. -/
inductive Written (tree : FileTree) (path text : String) (report : Transcript)
    (left : Ending × FileTree) : Prop where
  | file {place : List String} (leads : tree.destination path = .ok (.file place))
      (read : left.2.read path = .ok (Text.bytes text))
      (held : left.2.lookup place = some (.file (Text.bytes text)))
      (others : ∀ other, other ≠ place → left.2.lookup other = tree.lookup other)
      (output : left.1.output = report)
  | nowhere (leads : tree.destination path = .ok .nowhere) (kept : left.2 = tree)
      (output : left.1.output = report)
  | output (leads : tree.destination path = .ok .output) (opened : report.isClosed = false)
      (kept : left.2 = tree) (output : left.1.output = report.append text)
  | errors (leads : tree.destination path = .ok .errors) (kept : left.2 = tree)
      (output : left.1.output = report) (complaints : left.1.stderr = [text])

/-- Why no text can be written by path. -/
inductive Unwritable (tree : FileTree) (path : String) (report : Transcript) : IoError → Prop where
  | unreachable {e : IoError} (refused : tree.destination path = .error e) :
      Unwritable tree path report e
  | closed (leads : tree.destination path = .ok .output) (closed : report.isClosed = true) :
      Unwritable tree path report report.refusal

/-- The report of this session was written, and its machine where the request asks for it. -/
structure Delivered (tree : FileTree) (stdin : List UInt8) (output : Transcript)
    (request : RunRequest) (outcome : Outcome) (last : Session IntegerStream Transcript)
    (left : Ending × FileTree) : Prop where
  whole : ∃ session, Started request stdin (tree.withInput stdin).read output session ∧
    WholeReport request.config session last outcome
  unasked : request.stateFile = none → left.1.output = last.console.output ∧ left.2 = tree
  saved : ∀ path, request.stateFile = some path → Written (tree.withInput stdin) path
    (Json.write .indented last.machine) last.console.output left

/-- What each cause means, for the process and for what it leaves. -/
inductive EndsFor (tree : FileTree) (arguments : List String) (stdin : List UInt8)
    (output : Transcript) (left : Ending × FileTree) : Cause → Prop where
  | misused (rejected : Invocation.parse? arguments = none) (kept : left.2 = tree) :
      EndsFor tree arguments stdin output left .misused
  | informed {invocation : Invocation} (parsed : Invocation.parse? arguments = some invocation)
      (asked : invocation = .help ∨ invocation = .version) (kept : left.2 = tree) :
      EndsFor tree arguments stdin output left .informed
  | listed {path : String} {program : Program} {c c' : Console Program.Keyboard Transcript}
      (parsed : Invocation.parse? arguments = some (.list path))
      (loaded : Program.loadFile (tree.withInput stdin).read path (console [] output) =
        .ok program c)
      (printed : Console.write (Listing.text program.words) c = .ok () c')
      (heard : left.1.output = c'.output) (kept : left.2 = tree) :
      EndsFor tree arguments stdin output left .listed
  | unprinted {path : String} {program : Program} {c c' : Console Program.Keyboard Transcript}
      {e : IoError} (parsed : Invocation.parse? arguments = some (.list path))
      (loaded : Program.loadFile (tree.withInput stdin).read path (console [] output) =
        .ok program c)
      (refused : Console.write (Listing.text program.words) c = .error e c')
      (kept : left.2 = tree) :
      EndsFor tree arguments stdin output left .unprinted
  | unlisted {path : String} {e : Program.LoadError} {c : Console Program.Keyboard Transcript}
      (parsed : Invocation.parse? arguments = some (.list path))
      (failed : Program.loadFile (tree.withInput stdin).read path (console [] output) =
        .error e c) (kept : left.2 = tree) :
      EndsFor tree arguments stdin output left .unloaded
  | unloaded {request : RunRequest} {e : Program.LoadError}
      {c : Console Program.Keyboard Transcript}
      (parsed : Invocation.parse? arguments = some (.run request))
      (failed : load request (tree.withInput stdin).read (console stdin output) = .error e c)
      (kept : left.2 = tree) :
      EndsFor tree arguments stdin output left .unloaded
  | unconfirmed {request : RunRequest} {program : Program}
      {c c' : Console Program.Keyboard Transcript} {e : IoError}
      (parsed : Invocation.parse? arguments = some (.run request))
      (loaded : load request (tree.withInput stdin).read (console stdin output) = .ok program c)
      (refused : program.announce c = .error e c') (kept : left.2 = tree) :
      EndsFor tree arguments stdin output left .unconfirmed
  | broken {request : RunRequest} {session last : Session IntegerStream Transcript} {e : IoError}
      (parsed : Invocation.parse? arguments = some (.run request))
      (started : Started request stdin (tree.withInput stdin).read output session)
      (failed : execute request.config session = some (.error (.io e) last))
      (kept : left.2 = tree) :
      EndsFor tree arguments stdin output left .broken
  | unsaved {request : RunRequest} {outcome : Outcome}
      {last : Session IntegerStream Transcript} {path : String} {e : IoError}
      (parsed : Invocation.parse? arguments = some (.run request))
      (reported : Reported request stdin (tree.withInput stdin).read output outcome last)
      (named : request.stateFile = some path)
      (refused : Unwritable (tree.withInput stdin) path last.console.output e)
      (heard : left.1.output = last.console.output)
      (complaint : left.1.stderr = [s!"❌ Failed to write state to {path}: {e.message}"])
      (kept : left.2 = tree.withInput stdin) :
      EndsFor tree arguments stdin output left .unsaved
  | halted {request : RunRequest} {first final : UInt64}
      {last : Session IntegerStream Transcript}
      (parsed : Invocation.parse? arguments = some (.run request))
      (reported : Reported request stdin (tree.withInput stdin).read output
        (.halted first final) last)
      (state : last.machine.state = .halted first final)
      (delivered : Delivered tree stdin output request (.halted first final) last left) :
      EndsFor tree arguments stdin output left .halted
  | faulted {request : RunRequest} {fault : Fault} {last : Session IntegerStream Transcript}
      (parsed : Invocation.parse? arguments = some (.run request))
      (reported : Reported request stdin (tree.withInput stdin).read output (.faulted fault) last)
      (state : last.machine.state = .faulted fault)
      (delivered : Delivered tree stdin output request (.faulted fault) last left) :
      EndsFor tree arguments stdin output left .faulted
  | limited {request : RunRequest} {n : UInt64} {last : Session IntegerStream Transcript}
      (parsed : Invocation.parse? arguments = some (.run request))
      (reported : Reported request stdin (tree.withInput stdin).read output (.cycleLimit n) last)
      (limit : request.config.maxCycles = some n) (state : last.machine.state = .running)
      (count : last.machine.cycles = n)
      (delivered : Delivered tree stdin output request (.cycleLimit n) last left) :
      EndsFor tree arguments stdin output left .limited

variable {tree : FileTree} {arguments : List String} {ending : Ending} {left : Ending × FileTree}

/-! ### The state file -/

theorem Written.not_unwritable {path text : String} {report : Transcript} {e : IoError}
    (written : Written tree path text report left) : ¬ Unwritable tree path report e := by
  rintro (refused | ⟨leads, closed⟩)
  · cases written with
    | file leads | nowhere leads | output leads | errors leads =>
      cases leads.symm.trans refused
  · cases written with
    | output _ opened => cases opened.symm.trans closed
    | file found | nowhere found | errors found => cases found.symm.trans leads

theorem saveIn_written_or (tree : FileTree) {path text : String}
    (asked : ending.save = some (path, text)) (quiet : ending.stderr = []) :
    (Written tree path text ending.output (saveIn tree path text ending) ∧
      (saveIn tree path text ending).1.status = ending.status) ∨
    ∃ e, Unwritable tree path ending.output e ∧
      saveIn tree path text ending = (ending.conclude (some e), tree) := by
  unfold saveIn
  cases leads : tree.destination path with
  | error e => exact .inr ⟨e, .unreachable leads, rfl⟩
  | ok destination =>
    have kept : ending.conclude none = { ending with save := none } := by
      simp only [Ending.conclude, asked]
    simp only [kept]
    cases destination with
    | file place =>
      obtain ⟨read, held, others⟩ := FileTree.put_of_destination leads (Text.bytes text)
      exact .inl ⟨.file leads read held others rfl, rfl⟩
    | nowhere => exact .inl ⟨.nowhere leads rfl rfl, rfl⟩
    | errors => exact .inl ⟨.errors leads rfl rfl (by rw [quiet]; rfl), rfl⟩
    | output =>
      cases closed : ending.output.isClosed with
      | false =>
        simp only [Transcript.write_open closed]
        exact .inl ⟨.output leads closed rfl rfl, trivial⟩
      | true =>
        simp only [Transcript.write_closed closed]
        exact .inr ⟨_, .closed leads closed, rfl⟩

/-- What becomes of a prepared ending: its state file, if it has one, is written. -/
def finished (tree : FileTree) (stdin : List UInt8) (ending : Ending) : Ending × FileTree :=
  match ending.save with
  | none => (ending, tree)
  | some (path, text) => saveIn (tree.withInput stdin) path text ending

theorem runIn_eq : runIn tree arguments stdin output =
    (prepareArguments arguments stdin (tree.withInput stdin).read output).map
      (finished tree stdin) := by
  unfold runIn finished
  cases prepareArguments arguments stdin (tree.withInput stdin).read output with
  | none => rfl
  | some ending =>
    simp only [Option.bind_eq_bind, Option.bind_some, Option.map_some]
    cases ending.save <;> rfl

theorem runIn_of_parsed {invocation : Invocation}
    (parsed : Invocation.parse? arguments = some invocation) : runIn tree arguments stdin output =
      (prepare invocation stdin (tree.withInput stdin).read output).map (finished tree stdin) := by
  simp only [runIn_eq, prepareArguments, parsed]

theorem finished_unsaved (nothing : ending.save = none) :
    finished tree stdin ending = (ending, tree) := by
  simp only [finished, nothing]

theorem finished_reported {outcome : Outcome} {last : Session IntegerStream Transcript}
    (reported : Reported request stdin (tree.withInput stdin).read output outcome last)
    (finishes : finished tree stdin (endingOfRun request (.ok outcome last)) = left) :
    (Delivered tree stdin output request outcome last left ∧ left.1.status = outcome.exitCode) ∨
    ∃ path e, request.stateFile = some path ∧
      Unwritable (tree.withInput stdin) path last.console.output e ∧
      left = (⟨1, last.console.output,
        [s!"❌ Failed to write state to {path}: {e.message}"], none⟩, tree.withInput stdin) := by
  obtain ⟨session, started, returned⟩ := reported
  have whole := execute_whole returned
  cases named : request.stateFile with
  | none =>
    have asked : (endingOfRun request (.ok outcome last)).save = none := by
      simp only [endingOfRun, named, Option.map_none]
    rw [finished_unsaved asked] at finishes
    subst finishes
    refine .inl ⟨⟨⟨session, started, whole⟩, fun _ => ⟨rfl, rfl⟩, fun path other => ?_⟩, rfl⟩
    cases named.symm.trans other
  | some path =>
    have asked : (endingOfRun request (.ok outcome last)).save =
        some (path, Json.write .indented last.machine) := by
      simp only [endingOfRun, named, Option.map_some]
    simp only [finished, asked] at finishes
    rcases saveIn_written_or (tree.withInput stdin) asked rfl with
      ⟨written, status⟩ | ⟨e, refused, same⟩
    · rw [finishes] at written status
      refine .inl ⟨⟨⟨session, started, whole⟩, fun unasked => ?_, fun other same => ?_⟩, status⟩
      · cases named.symm.trans unasked
      · cases named.symm.trans same
        exact written
    · refine .inr ⟨path, e, rfl, refused, ?_⟩
      rw [← finishes, same]
      simp only [Ending.conclude, endingOfRun, named, Option.map_some, List.nil_append]

theorem Delivered.writable {outcome : Outcome} {last : Session IntegerStream Transcript}
    {path : String} {e : IoError}
    (delivered : Delivered tree stdin output request outcome last left)
    (named : request.stateFile = some path) :
    ¬ Unwritable (tree.withInput stdin) path last.console.output e :=
  (delivered.saved path named).not_unwritable

theorem Reported.cause {outcome : Outcome} {last : Session IntegerStream Transcript}
    (parsed : Invocation.parse? arguments = some (.run request))
    (reported : Reported request stdin (tree.withInput stdin).read output outcome last)
    (delivered : Delivered tree stdin output request outcome last left) :
    ∃ cause, EndsFor tree arguments stdin output left cause ∧ outcome.exitCode = cause.status := by
  have whole := reported
  obtain ⟨session, started, returned⟩ := reported
  obtain ⟨running, cycles, -⟩ := started.fresh
  obtain ⟨opened, -, tells⟩ :=
    execute_tells returned fun fault faulted => nomatch running.symm.trans faulted
  cases outcome with
  | halted first final =>
    exact ⟨.halted, .halted parsed whole ((tells.halted first final).mp rfl) delivered, rfl⟩
  | faulted fault =>
    exact ⟨.faulted, .faulted parsed whole ((tells.faulted fault).mp rfl) delivered, rfl⟩
  | cycleLimit n =>
    obtain ⟨limit, state, count⟩ := execute_limit running cycles returned
    exact ⟨.limited, .limited parsed whole limit state count delivered, rfl⟩

theorem notice_status (text : String) (output : Transcript) :
    (notice text output).status = 0 ∧ (notice text output).save = none := by
  unfold notice
  split <;> exact ⟨rfl, rfl⟩

theorem EndsFor.status {cause : Cause} (ends : EndsFor tree arguments stdin output left cause)
    (ended : runIn tree arguments stdin output = some left) : left.1.status = cause.status := by
  have prepared {request : RunRequest} {ending : Ending}
      (parsed : Invocation.parse? arguments = some (.run request))
      (ends : RunEnds request stdin (tree.withInput stdin).read output ending) :
      finished tree stdin ending = left := by
    rw [runIn_of_parsed parsed, prepare, run_of_ends ends] at ended
    exact Option.some.inj ended
  have delivers {request : RunRequest} {outcome : Outcome}
      {last : Session IntegerStream Transcript}
      (parsed : Invocation.parse? arguments = some (.run request))
      (reported : Reported request stdin (tree.withInput stdin).read output outcome last)
      (delivered : Delivered tree stdin output request outcome last left) :
      left.1.status = outcome.exitCode := by
    rcases finished_reported reported (prepared parsed (.reported reported)) with
      ⟨-, status⟩ | ⟨path, e, named, refused, -⟩
    · exact status
    · exact absurd refused (delivered.writable named)
  cases ends with
  | misused rejected =>
    simp only [runIn_eq, prepareArguments, rejected, Option.map_some, Option.some.injEq] at ended
    exact ended ▸ rfl
  | informed parsed asked =>
    rw [runIn_of_parsed parsed] at ended
    have noticed (text : String)
        (ended : some (finished tree stdin (notice text output)) = some left) :
        left.1.status = 0 := by
      obtain ⟨status, nothing⟩ := notice_status text output
      rw [finished_unsaved nothing] at ended
      cases ended
      exact status
    rcases asked with rfl | rfl
    · exact noticed helpText ended
    · exact noticed versionText ended
  | listed parsed loaded printed | unprinted parsed loaded printed =>
    rw [runIn_of_parsed parsed] at ended
    simp only [prepare, list, loaded, printed] at ended
    cases ended
    rfl
  | unlisted parsed failed =>
    rw [runIn_of_parsed parsed] at ended
    simp only [prepare, list, failed] at ended
    cases ended
    rfl
  | unloaded parsed failed => exact prepared parsed (.unloaded failed) ▸ rfl
  | unconfirmed parsed loaded refused => exact prepared parsed (.unannounced loaded refused) ▸ rfl
  | broken parsed started failed => exact prepared parsed (.broken started failed) ▸ rfl
  | unsaved parsed reported named refused =>
    rcases finished_reported reported (prepared parsed (.reported reported)) with
      ⟨delivered, -⟩ | ⟨_, _, -, -, rfl⟩
    · exact absurd refused (delivered.writable named)
    · rfl
  | halted parsed reported _ delivered => exact delivers parsed reported delivered
  | faulted parsed reported _ delivered => exact delivers parsed reported delivered
  | limited parsed reported _ _ _ delivered => exact delivers parsed reported delivered

theorem components_p : FileTree.components "p" = .ok ["p"] := by
  have split : "p".splitOn "/" = ["p"] := by
    change String.splitOnAux "p" "/" 0 0 0 [] = _
    rw [String.splitOnAux, if_neg (by decide), if_neg (by decide), String.splitOnAux,
      if_pos (by decide)]
    rfl
  change Except.ok (("p".splitOn "/").filter _) = _
  rw [split]
  rfl

end Command

end DecimalMachine
