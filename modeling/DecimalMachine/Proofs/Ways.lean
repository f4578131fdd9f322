import DecimalMachine.Proofs.Arguments
import DecimalMachine.Proofs.ExitStatus
import DecimalMachine.Proofs.Files
import DecimalMachine.Proofs.Loading
import DecimalMachine.Proofs.Recital

/-!
The same words, loaded in any of three ways, are run alike.

A program is run at the machine and the input that its loader left, and these are the same. What the
loader said before stands in front of the text of the run.
-/

namespace DecimalMachine

/-! ### The same run behind another text -/

section

variable {ι ω : Type} [Source ι] [Sink ω] {holds : ω → String → Prop}

theorem execute_of_agrees (reliable : Reliable holds) {config : Config} {s t : Session ι ω}
    {text text' : String} (agrees : s.Agrees t) (held : holds s.console.output text)
    (held' : holds t.console.output text')
    {r : EStateM.Result StepError (Session ι ω) Outcome} (returned : execute config s = some r) :
    ∃ r', execute config t = some r' ∧ Alike Session.Agrees r r' ∧ ∃ said,
      holds (endState r).console.output (text ++ said) ∧
      holds (endState r').console.output (text' ++ said) := by
  obtain ⟨ms, -, elsewhere⟩ := execute_recited (ω := ω) reliable returned held
  obtain ⟨r₁, returned₁, here⟩ := elsewhere s ⟨rfl, rfl⟩
  obtain ⟨r', returned', there⟩ := elsewhere t agrees
  cases returned.symm.trans returned₁
  obtain ⟨alike, heard'⟩ := alike_of_recited reliable held' there
  exact ⟨r', returned', alike, told ms, (alike_of_recited reliable held here).2, heard'⟩

omit [Source ι] [Sink ω] in
theorem Session.Agrees.symm {s t : Session ι ω} (agrees : s.Agrees t) : t.Agrees s :=
  ⟨agrees.machine.symm, agrees.input.symm⟩

theorem execute_alike (reliable : Reliable holds) (config : Config) {s t : Session ι ω}
    {text text' : String} (agrees : s.Agrees t) (held : holds s.console.output text)
    (held' : holds t.console.output text') :
    Option.Rel (fun r r' => Alike Session.Agrees r r' ∧ ∃ said,
        holds (endState r).console.output (text ++ said) ∧
        holds (endState r').console.output (text' ++ said))
      (execute config s) (execute config t) := by
  cases returned : execute config s with
  | some r =>
    obtain ⟨r', returned', alike, heard⟩ := execute_of_agrees reliable agrees held held' returned
    rw [returned']
    exact .some ⟨alike, heard⟩
  | none =>
    cases returned' : execute config t with
    | none => exact .none
    | some r' =>
      obtain ⟨r, ran, -⟩ := execute_of_agrees reliable agrees.symm held' held returned'
      cases returned.symm.trans ran

end

namespace Command

/-! ### The same ending behind another text -/

structure Echoes (text : String) (e e' : Ending) : Prop where
  status : e'.status = e.status
  unlimited : e.output.limit = none
  unlimited' : e'.output.limit = none
  stdout : e'.stdout = text ++ e.stdout
  stderr : e'.stderr = e.stderr
  save : e'.save = e.save

theorem endingOfRun_echoes {request request' : RunRequest}
    (stateFile : request.stateFile = request'.stateFile) {text before said : String}
    {r r' : EStateM.Result StepError (Session IntegerStream Transcript) Outcome}
    (alike : Alike Session.Agrees r r')
    (heard : (endState r).console.output.Holds (before ++ said))
    (heard' : (endState r').console.output.Holds (text ++ before ++ said)) :
    Echoes text (endingOfRun request r) (endingOfRun request' r') := by
  have stdout : (endState r').console.output.text = text ++ (endState r).console.output.text := by
    rw [heard.2, heard'.2, String.append_assoc]
  cases alike with
  | ok agrees =>
    refine ⟨rfl, heard.1, heard'.1, stdout, rfl, ?_⟩
    simp only [endingOfRun, stateFile, agrees.machine]
  | error agrees => exact ⟨rfl, heard.1, heard'.1, stdout, rfl, rfl⟩

/-- Two ends of the process that differ in a text in front of the output, and in the bytes of the
standard input. -/
structure Follows (text : String) (x y : Ending × FileTree) : Prop where
  status : y.1.status = x.1.status
  stdout : y.1.stdout = text ++ x.1.stdout
  stderr : y.1.stderr = x.1.stderr
  files : x.2.Same y.2

theorem Echoes.finished {text : String} {e e' : Ending} (echoes : Echoes text e e')
    (tree : FileTree) (stdin stdin' : List UInt8) :
    Follows text (finished tree stdin e) (finished tree stdin' e') := by
  obtain ⟨status, unlimited, unlimited', stdout, stderr, save⟩ := echoes
  have same := tree.same_withInput stdin stdin'
  cases asked : e.save with
  | none =>
    rw [asked] at save
    simp only [Command.finished, asked, save]
    exact ⟨status, stdout, stderr, .refl tree⟩
  | some file =>
    obtain ⟨path, json⟩ := file
    rw [asked] at save
    simp only [Command.finished, asked, save, saveIn, ← same.destination path]
    cases (tree.withInput stdin).destination path with
    | error e =>
      simp only [Ending.conclude, asked, save]
      exact ⟨rfl, stdout, by rw [stderr], same⟩
    | ok place =>
      cases place with
      | file place =>
        simp only [Ending.conclude, asked, save]
        exact ⟨status, stdout, stderr, same.put place _⟩
      | nowhere =>
        simp only [Ending.conclude, asked, save]
        exact ⟨status, stdout, stderr, same⟩
      | output =>
        have opened : e.output.isClosed = false := by rw [Transcript.isClosed, unlimited]
        have opened' : e'.output.isClosed = false := by rw [Transcript.isClosed, unlimited']
        simp only [Transcript.write_open opened, Transcript.write_open opened', Ending.conclude,
          asked, save]
        refine ⟨status, ?_, stderr, same⟩
        change e'.stdout ++ json = text ++ (e.stdout ++ json)
        rw [stdout, String.append_assoc]
      | errors =>
        simp only [Ending.conclude, asked, save]
        exact ⟨status, stdout, by simp only [stderr], same⟩

/-! ### What a loader leaves -/

/-- Behind this text the request is loaded and confirmed; it is run from this machine, and these
bytes are left of the input. -/
def Starts (request : RunRequest) (stdin : List UInt8) (files : Program.FileReader) (text : String)
    (machine : Machine) (rest : List UInt8) : Prop :=
  ∃ session, Started request stdin files {} session ∧ session.machine = machine ∧
    session.console.input = ⟨[], Text.lines rest⟩ ∧
    session.console.output.Holds (text ++ "Program loaded successfully.\n")

theorem starts_of_tells {request : RunRequest} {stdin rest : List UInt8}
    {files : Program.FileReader} {ms : List (Moment Program.Keyboard)} {ws : List Word}
    {machine : Machine}
    (tells : Tells .io (load request files) (Text.lines stdin) ms (.ok ⟨ws, []⟩) (Text.lines rest))
    (placed : Machine.fresh.loadProgram ws = .placed machine) :
    Starts request stdin files (told ms) machine rest := by
  have empty : Transcript.Holds {} "" := ⟨rfl, rfl⟩
  obtain ⟨journal, loaded⟩ := tells.at_output {} {}
  obtain ⟨output, recited, held⟩ := Transcript.reliable.recite ms empty
  simp only [outcomeAt, recited] at loaded
  rw [String.empty_append] at held
  obtain ⟨output', journal', announced, held'⟩ :=
    Comes.writeLines Transcript.reliable ["Program loaded successfully."] output journal (told ms)
      held
  exact ⟨_, .start loaded announced placed, rfl, rfl, held'⟩

theorem run_echoes {request request' : RunRequest} {stdin stdin' rest : List UInt8}
    {files files' : Program.FileReader} {text : String} {machine : Machine}
    (config : request.config = request'.config) (stateFile : request.stateFile = request'.stateFile)
    (starts : Starts request stdin files "" machine rest)
    (starts' : Starts request' stdin' files' text machine rest) :
    Option.Rel (Echoes text) (run request stdin files {}) (run request' stdin' files' {}) := by
  obtain ⟨session, started, here, unread, held⟩ := starts
  obtain ⟨session', started', there, unread', held'⟩ := starts'
  have agrees : session.Agrees session' := ⟨here.trans there.symm, unread.trans unread'.symm⟩
  have alike := execute_alike Transcript.reliable request.config agrees held held'
  rw [run_of_started started, run_of_started started', ← config]
  generalize execute request.config session = r at alike
  generalize execute request.config session' = r' at alike
  cases alike with
  | none => exact .none
  | some related =>
    obtain ⟨alike, said, heard, heard'⟩ := related
    exact .some (endingOfRun_echoes stateFile alike heard heard')

theorem runIn_follows (tree : FileTree) {arguments arguments' : List String}
    {request request' : RunRequest} {stdin stdin' rest : List UInt8} {text : String}
    {machine : Machine} (parsed : Invocation.parse? arguments = some (.run request))
    (parsed' : Invocation.parse? arguments' = some (.run request'))
    (config : request.config = request'.config) (stateFile : request.stateFile = request'.stateFile)
    (starts : Starts request stdin (tree.withInput stdin).read "" machine rest)
    (starts' : Starts request' stdin' (tree.withInput stdin').read text machine rest) :
    Option.Rel (Follows text) (runIn tree arguments stdin {})
      (runIn tree arguments' stdin' {}) := by
  have echoes := run_echoes config stateFile starts starts'
  simp only [runIn_of_parsed parsed, runIn_of_parsed parsed', prepare]
  generalize run request stdin (tree.withInput stdin).read {} = e at echoes
  generalize run request' stdin' (tree.withInput stdin').read {} = e' at echoes
  cases echoes with
  | none => exact .none
  | some related => exact .some (related.finished tree stdin stdin')

/-! ### The three ways -/

theorem parse?_run {options : List String} {request : RunRequest}
    (parsed : Invocation.ofRun options = .ok (.run request)) :
    Invocation.parse? ("run" :: options) = some (.run request) := by
  simp only [Invocation.parse?, Invocation.ofArguments, parsed]

variable {files : Program.FileReader} {config : Config} {stateFile : Option String}
  {ws : List Word} {machine : Machine}

theorem starts_from_file {name : String} (stdin : List UInt8)
    (holds : Program.FileHolds files name ws) (fits : ws.length ≤ Program.capacity)
    (placed : Machine.fresh.loadProgram ws = .placed machine) :
    Starts ⟨some name, config, stateFile⟩ stdin files "" machine stdin := by
  have tells : Tells .io (load ⟨some name, config, stateFile⟩ files) (Text.lines stdin) []
      (.ok ⟨ws, []⟩) (Text.lines stdin) := Program.loadFile_tells holds fits .io _
  exact starts_of_tells tells placed

theorem starts_typed {lines : List String} (rest : List UInt8)
    (typedFor : List.Forall₂ Program.TypedFor ws lines) (ordinary : ∀ w ∈ ws, w.value ≠ -999999)
    (fits : ws.length ≤ Program.capacity)
    (placed : Machine.fresh.loadProgram ws = .placed machine) :
    ∃ text, Starts ⟨none, config, stateFile⟩ (Program.typing lines rest) files text machine
      rest := by
  obtain ⟨ms, tells⟩ := Program.loadPrompted_leads_typed (ω := Transcript) files typedFor ordinary
    fits (Text.lines rest)
  rw [typedFor.length_eq, ← Program.lines_typing (Program.flat_of_typed typedFor)] at tells
  exact ⟨told ms, starts_of_tells tells placed⟩

theorem starts_named {name : String} (rest : List UInt8) (flat : Flat name)
    (trimmed : Text.trim name = name) (holds : Program.FileHolds files name ws)
    (fits : ws.length ≤ Program.capacity)
    (placed : Machine.fresh.loadProgram ws = .placed machine) :
    ∃ text, Starts ⟨none, config, stateFile⟩ (Program.naming name rest) files text machine
      rest := by
  have found : Program.FileHolds files (Text.trim (name ++ "\n")) ws := by
    rwa [Text.trim_line, trimmed]
  obtain ⟨ms, tells⟩ := Program.loadPrompted_leads_named (ω := Transcript) found fits
    (Text.lines rest)
  rw [← Program.lines_naming flat] at tells
  exact ⟨told ms, starts_of_tells tells placed⟩

/-- A program is run alike whether it is loaded from a file that the arguments name, typed, or
loaded from a file that the input names: it starts with the same machine and the same rest of the
input, and what comes of it differs only in what the loader said. -/
theorem loading_ways_agree (tree : FileTree) {name : String} {options lines : List String}
    (rest : List UInt8) (parsed : Invocation.ofRun options = .ok (.run ⟨none, config, stateFile⟩))
    (undashed : name.toList.head? ≠ some '-') (flat : Flat name) (trimmed : Text.trim name = name)
    (fits : ws.length ≤ Program.capacity) (ordinary : ∀ w ∈ ws, w.value ≠ -999999)
    (typedFor : List.Forall₂ Program.TypedFor ws lines)
    (holds : Program.FileHolds (tree.withInput rest).read name ws)
    (holds' : Program.FileHolds (tree.withInput (Program.naming name rest)).read name ws) :
    ∃ machine whenTyped whenNamed, Machine.fresh.loadProgram ws = .placed machine ∧
      Starts ⟨some name, config, stateFile⟩ rest (tree.withInput rest).read "" machine rest ∧
      Starts ⟨none, config, stateFile⟩ (Program.typing lines rest)
        (tree.withInput (Program.typing lines rest)).read whenTyped machine rest ∧
      Starts ⟨none, config, stateFile⟩ (Program.naming name rest)
        (tree.withInput (Program.naming name rest)).read whenNamed machine rest ∧
      Option.Rel (Follows whenTyped) (runIn tree ("run" :: name :: options) rest {})
        (runIn tree ("run" :: options) (Program.typing lines rest) {}) ∧
      Option.Rel (Follows whenNamed) (runIn tree ("run" :: name :: options) rest {})
        (runIn tree ("run" :: options) (Program.naming name rest) {}) := by
  obtain ⟨machine, placed, -⟩ := Machine.fresh_loads fits
  have fromFile : Starts ⟨some name, config, stateFile⟩ rest (tree.withInput rest).read "" machine
      rest := starts_from_file rest holds fits placed
  obtain ⟨whenTyped, typed⟩ := starts_typed rest typedFor ordinary fits placed
  obtain ⟨whenNamed, named⟩ := starts_named rest flat trimmed holds' fits placed
  have naming := parse?_run (Invocation.ofRun_naming parsed undashed)
  have asking := parse?_run parsed
  exact ⟨machine, whenTyped, whenNamed, placed, fromFile, typed, named,
    runIn_follows tree naming asking rfl rfl fromFile typed,
    runIn_follows tree naming asking rfl rfl fromFile named⟩

-- A program that writes the number it reads.
def echo : List Word := [100003, 110003, 450000].map Word.ofInt

def echoText : String := "+100003 +110003\n+450000"

def echoTree : FileTree := ({} : FileTree).addAll [(["p"], .file (Text.bytes echoText))]

theorem echoTree_read (stdin : List UInt8) :
    (echoTree.withInput stdin).read "p" = .ok (Text.bytes echoText) := by
  simp only [FileTree.read, FileTree.resolve, components_p]
  rfl

theorem echo_held (stdin : List UInt8) :
    Program.FileHolds (echoTree.withInput stdin).read "p" echo := by
  have tokens : Text.tokens echoText = ["+100003", "+110003", "+450000"] := by decide
  refine ⟨_, _, echoTree_read stdin, Text.ofUtf8?_bytes echoText, ?_⟩
  rw [tokens]
  exact .cons ⟨100003, by decide, by rfl⟩ (.cons ⟨110003, by decide, by rfl⟩
    (.cons ⟨450000, by decide, by rfl⟩ .nil))

theorem echo_typed : List.Forall₂ Program.TypedFor echo ["100003", " +110003", "+450000"] :=
  .cons ⟨by decide, 100003, by decide, by rfl⟩ (.cons ⟨by decide, 110003, by decide, by rfl⟩
    (.cons ⟨by decide, 450000, by decide, by rfl⟩ .nil))

theorem echo_halts :
    (runIn echoTree ["run", "p", "-q"] (Text.bytes "42\n") {}).map (·.1.status) = some 0 := by
  have parsed : Invocation.parse? ["run", "p", "-q"] =
      some (.run ⟨some "p", ⟨false, none⟩, none⟩) := by rfl
  simp only [runIn_of_parsed parsed, prepare, run, load, Program.loadFile, echoTree_read,
    Text.ofUtf8?_bytes]
  decide +kernel

theorem loading_ways_agree_echo :
    ∃ x y z whenTyped whenNamed,
      runIn echoTree ["run", "p", "-q"] (Text.bytes "42\n") {} = some x ∧ x.1.status = 0 ∧
      runIn echoTree ["run", "-q"]
        (Program.typing ["100003", " +110003", "+450000"] (Text.bytes "42\n")) {} = some y ∧
      runIn echoTree ["run", "-q"] (Program.naming "p" (Text.bytes "42\n")) {} = some z ∧
      Follows whenTyped x y ∧ Follows whenNamed x z := by
  obtain ⟨x, ended, status⟩ := Option.map_eq_some_iff.mp echo_halts
  have parsed : Invocation.ofRun ["-q"] = .ok (.run ⟨none, ⟨false, none⟩, none⟩) := by rfl
  have ordinary : ∀ w ∈ echo, w.value ≠ -999999 := by decide
  obtain ⟨-, whenTyped, whenNamed, -, -, -, -, typed, named⟩ :=
    loading_ways_agree echoTree (Text.bytes "42\n") parsed (by decide) (by decide) (by decide)
      (by decide) ordinary echo_typed (echo_held _) (echo_held _)
  rw [ended] at typed named
  generalize runIn echoTree ["run", "-q"] (Program.typing _ _) {} = typedEnd at typed ⊢
  generalize runIn echoTree ["run", "-q"] (Program.naming _ _) {} = namedEnd at named ⊢
  cases typed with
  | some typed =>
    cases named with
    | some named =>
      exact ⟨x, _, _, whenTyped, whenNamed, ended, status, rfl, rfl, typed, named⟩

end Command

end DecimalMachine
