import Mathlib.Data.List.Forall2
import DecimalMachine.Program.Loading
import DecimalMachine.Proofs.Lines
import DecimalMachine.Proofs.Moments

/-!
Three ways to load the same words: from a file, from a file that is named in the input, and typed
line by line.

Each of them leaves the input behind the last line that it asked for.
-/

namespace DecimalMachine

variable {ι ω ε α β : Type}

/-- The token is read as this word. -/
def Word.ReadFrom (w : Word) (token : String) : Prop :=
  ∃ v, Decimal.int64? token = some v ∧ Word.ofInt64 v = .ok w

/-- Whatever it says, the dialogue comes to this value and leaves this input. -/
def Leads [Sink ω] (raise : IoError → ε) (act : Dialogue ι ω ε α) (input : ι) (a : α) (input' : ι) :
    Prop := ∃ ms, Tells raise act input ms (.ok a) input'

namespace Leads

variable [Sink ω] {raise : IoError → ε} {act : Dialogue ι ω ε α} {input input₁ input₂ : ι}
  {a : α} {b : β}

theorem silent (quiet : ∀ output journal, ∃ journal',
    act ⟨input, output, journal⟩ = .ok a ⟨input₁, output, journal'⟩) :
    Leads raise act input a input₁ := ⟨[], .silent quiet⟩

theorem pure (raise : IoError → ε) (a : α) (input : ι) :
    Leads raise (Pure.pure a : Dialogue ι ω ε α) input a input := ⟨[], .pure raise a input⟩

theorem note (raise : IoError → ε) (e : Event) (input : ι) :
    Leads raise (Console.note e : Dialogue ι ω ε Unit) input () input := ⟨[], .note raise e input⟩

theorem prompt (text : String) (input : ι) :
    Leads id (Console.prompt text : Dialogue ι ω IoError Unit) input () input :=
  ⟨_, .prompt text input⟩

theorem writeLine (line : String) (input : ι) :
    Leads id (Console.writeLine line : Dialogue ι ω IoError Unit) input () input :=
  ⟨_, .write (line ++ "\n") input⟩

theorem writeLines (lines : List String) (input : ι) :
    Leads id (Console.writeLines lines : Dialogue ι ω IoError Unit) input () input :=
  ⟨_, .writeLines lines input⟩

theorem bind {next : α → Dialogue ι ω ε β} (first : Leads raise act input a input₁)
    (second : Leads raise (next a) input₁ b input₂) :
    Leads raise (act >>= next) input b input₂ := by
  obtain ⟨ms, tells⟩ := first
  obtain ⟨ms', tells'⟩ := second
  exact ⟨ms ++ ms', tells.bind tells'⟩

theorem withError {ε' : Type} (f : ε → ε') (inner : Leads raise act input a input₁) :
    Leads (f ∘ raise) (act.withError f) input a input₁ := by
  obtain ⟨ms, tells⟩ := inner
  exact ⟨ms, .withError f tells⟩

theorem same (act' : Dialogue ι ω ε α)
    (agree : ∀ output journal, act ⟨input, output, journal⟩ = act' ⟨input, output, journal⟩)
    (other : Leads raise act' input a input₁) : Leads raise act input a input₁ := by
  obtain ⟨ms, tells⟩ := other
  exact ⟨ms, .same agree tells⟩

end Leads

namespace Program

/-! ### From a file -/

theorem scan_words {ws : List Word} {tokens : List String}
    (read : List.Forall₂ Word.ReadFrom ws tokens)
    {room : Nat} (fits : ws.length ≤ room) : (scan room tokens).program = ⟨ws, []⟩ := by
  induction read generalizing room with
  | nil => cases room <;> rfl
  | @cons w token ws tokens first _ ih =>
    obtain ⟨v, value, word⟩ := first
    obtain ⟨room, rfl⟩ := Nat.exists_eq_add_of_le' (Nat.lt_of_lt_of_le (Nat.succ_pos _) fits)
    have rest := ih (Nat.le_of_succ_le_succ fits)
    simp only [scan, value, word, Scan.accept, rest]

/-- The file holds these words, and nothing else but white space. -/
def FileHolds (files : FileReader) (path : String) (ws : List Word) : Prop :=
  ∃ bytes text, files path = .ok bytes ∧ Text.ofUtf8? bytes = some text ∧
    List.Forall₂ Word.ReadFrom ws (Text.tokens text)

theorem loadFile_tells [Sink ω] {files : FileReader} {path : String} {ws : List Word}
    (holds : FileHolds files path ws) (fits : ws.length ≤ capacity) (raise : IoError → LoadError)
    (input : ι) :
    Tells raise (loadFile files path : Dialogue ι ω LoadError Program) input [] (.ok ⟨ws, []⟩)
      input := by
  obtain ⟨bytes, text, read, decoded, tokens⟩ := holds
  have found : (scanText text).program = ⟨ws, []⟩ := scan_words tokens fits
  have noted (es : List Event) :
      Tells raise (Console.noteAll es : Dialogue ι ω LoadError Unit) input [] (.ok ()) input :=
    .silent fun _ journal => ⟨journal.noteAll es, rfl⟩
  simp only [loadFile, read, decoded, found]
  exact (noted _).after ((Tells.note raise _ _).after (.pure raise _ _))

/-! ### Typed words -/

variable [Sink ω]

def TypedFor (w : Word) (line : String) : Prop := Flat line ∧ w.ReadFrom (Text.trim line)

omit [Sink ω] in
theorem flat_of_typed {ws : List Word} {lines : List String}
    (typedFor : List.Forall₂ TypedFor ws lines) : ∀ line ∈ lines, Flat line := by
  induction typedFor with
  | nil => nofun
  | cons first _ ih => exact List.forall_mem_cons.mpr ⟨first.1, ih⟩

theorem ofText_typed {w : Word} {line : String} (typed : TypedFor w line)
    (ordinary : w.value ≠ -999999) : Entry.ofText (line ++ "\n") = .word w := by
  obtain ⟨-, v, value, word⟩ := typed
  have other : v ≠ sentinel := by
    rintro rfl
    unfold Word.ofInt64 at word
    cases made : Word.ofInt? sentinel.toInt with
    | none => simp [made] at word
    | some w' =>
      simp only [made, Except.ok.injEq] at word
      subst word
      exact ordinary (Word.value_of_ofInt? made)
  simp only [Entry.ofText, Text.trim_line, value, if_neg other, word]

theorem leave_leads (rest input : Keyboard) :
    Leads id (leave rest : Dialogue Keyboard ω IoError Unit) input () rest :=
  .silent fun _ journal => ⟨journal, rfl⟩

def typed (lines : List String) : Keyboard := lines.map fun line => Text.bytes (line ++ "\n")

/-- What is typed behind `n` words: the sentinel, unless they fill the page. -/
def closing (n : Nat) : Keyboard := if n < capacity then [Text.bytes "-999999\n"] else []

theorem enterFrom_leads (words : List Word) {ws : List Word} {lines : List String}
    (typedFor : List.Forall₂ TypedFor ws lines) (ordinary : ∀ w ∈ ws, w.value ≠ -999999)
    (fits : words.length + ws.length ≤ capacity) (rest : Keyboard) :
    Leads id (enterFrom words (typed lines ++ (closing (words.length + ws.length) ++ rest)) :
        Dialogue Keyboard ω IoError _)
      (typed lines ++ (closing (words.length + ws.length) ++ rest)) (words ++ ws) rest := by
  induction typedFor generalizing words with
  | nil =>
    rw [List.append_nil]
    by_cases room : words.length < capacity
    · have sentinel : Entry.ofText "-999999\n" = .sentinel := by rfl
      simp only [typed, closing, List.length_nil, Nat.add_zero, if_pos room, List.map_nil,
        List.nil_append, List.singleton_append, enterFrom, if_neg (Nat.not_le_of_lt room),
        Text.ofUtf8?_bytes, sentinel]
      exact (Leads.prompt _ _).bind ((leave_leads rest _).bind (.pure id words rest))
    · -- The page is full, so that no further line is asked for.
      have full : capacity ≤ words.length := Nat.le_of_not_lt room
      simp only [typed, closing, List.length_nil, Nat.add_zero, if_neg room, List.map_nil,
        List.nil_append]
      cases rest <;> simp only [enterFrom, if_pos full] <;> exact .pure id words _
  | @cons w line ws lines first _ ih =>
    obtain ⟨head, tail⟩ := List.forall_mem_cons.mp ordinary
    have room : words.length < capacity := by
      simp only [List.length_cons] at fits
      omega
    have length : words.length + (w :: ws).length = (words ++ [w]).length + ws.length := by
      simp only [List.length_append, List.length_cons, List.length_nil]
      omega
    have others := ih (words ++ [w]) tail (length ▸ fits)
    rw [List.append_assoc, List.singleton_append, ← length] at others
    simp only [typed, List.map_cons, List.cons_append] at others ⊢
    rw [enterFrom, if_neg (Nat.not_le_of_lt room)]
    simp only [Text.ofUtf8?_bytes, ofText_typed first head]
    exact (Leads.prompt _ _).bind ((leave_leads _ _).bind others)

theorem enter_leads {ws : List Word} {lines : List String}
    (typedFor : List.Forall₂ TypedFor ws lines) (ordinary : ∀ w ∈ ws, w.value ≠ -999999)
    (fits : ws.length ≤ capacity) (rest : Keyboard) :
    Leads id (enter : Dialogue Keyboard ω IoError Program)
      (typed lines ++ (closing ws.length ++ rest)) ⟨ws, []⟩ rest := by
  have entered := enterFrom_leads (ω := ω) [] typedFor ordinary
    (by rwa [List.length_nil, Nat.zero_add]) rest
  rw [List.length_nil, Nat.zero_add, List.nil_append] at entered
  have behind : Leads id (do
      let words ← enterFrom [] (typed lines ++ (closing ws.length ++ rest))
      Console.note (.entered words.length)
      return ({ words } : Program) : Dialogue Keyboard ω IoError Program)
      (typed lines ++ (closing ws.length ++ rest)) ⟨ws, []⟩ rest :=
    entered.bind ((Leads.note id _ _).bind (.pure id _ _))
  exact (Leads.writeLines _ _).bind (.same _ (fun _ _ => by rfl) behind)

/-! ### Streams of lines -/

def typing (lines : List String) (rest : List UInt8) : List UInt8 :=
  (Text.bytes "n\n" :: (typed lines ++ closing lines.length)).flatten ++ rest

def naming (name : String) (rest : List UInt8) : List UInt8 :=
  [Text.bytes "y\n", Text.bytes (name ++ "\n")].flatten ++ rest

theorem lines_naming {name : String} (flat : Flat name) (rest : List UInt8) :
    Text.lines (naming name rest) =
      Text.bytes "y\n" :: Text.bytes (name ++ "\n") :: Text.lines rest := by
  have yes : Flat "y" := by decide
  have streamed : naming name rest =
      Text.bytes ("y" ++ "\n") ++ (Text.bytes (name ++ "\n") ++ rest) := by
    simp only [naming, List.flatten_cons, List.flatten_nil, List.append_nil, List.append_assoc]
    rfl
  rw [streamed, Text.lines_typed yes, Text.lines_typed flat]
  rfl

theorem lines_closing (n : Nat) (rest : List UInt8) :
    Text.lines ((closing n).flatten ++ rest) = closing n ++ Text.lines rest := by
  have flat : Flat "-999999" := by decide
  unfold closing
  split
  · have streamed : [Text.bytes "-999999\n"].flatten ++ rest =
        Text.bytes ("-999999" ++ "\n") ++ rest := by
      rw [List.flatten_cons, List.flatten_nil, List.append_nil]
      rfl
    rw [streamed, Text.lines_typed flat]
    rfl
  · rfl

theorem lines_typing {lines : List String} (flat : ∀ line ∈ lines, Flat line)
    (rest : List UInt8) :
    Text.lines (typing lines rest) =
      Text.bytes "n\n" :: (typed lines ++ (closing lines.length ++ Text.lines rest)) := by
  have no : Flat "n" := by decide
  have words (n : Nat) : Text.lines ((typed lines ++ closing n).flatten ++ rest) =
      typed lines ++ (closing n ++ Text.lines rest) := by
    induction lines with
    | nil => exact lines_closing n rest
    | cons line lines ih =>
      obtain ⟨first, others⟩ := List.forall_mem_cons.mp flat
      simp only [typed, List.map_cons, List.cons_append, List.flatten_cons,
        List.append_assoc] at ih ⊢
      rw [Text.lines_typed first, ih others]
  have streamed : typing lines rest =
      Text.bytes ("n" ++ "\n") ++ ((typed lines ++ closing lines.length).flatten ++ rest) := by
    rw [typing, List.flatten_cons, List.append_assoc]
    rfl
  rw [streamed, Text.lines_typed no, words]
  rfl

/-! ### The user's choice -/

theorem nextLine_leads (line : String) (rest : Keyboard) :
    Leads id (nextLine : Dialogue Keyboard ω IoError String) (Text.bytes line :: rest) line
      rest := by
  refine .silent fun _ journal => ⟨journal, ?_⟩
  simp only [nextLine, Text.ofUtf8?_bytes]

theorem askForFile_leads_none (rest : Keyboard) :
    Leads id (askForFile : Dialogue Keyboard ω IoError _) (Text.bytes "n\n" :: rest) none rest := by
  have no : isYes "n\n" = false := by decide
  apply (Leads.writeLine _ _).bind
  apply (Leads.prompt _ _).bind
  apply (nextLine_leads _ _).bind
  simp only [no, Bool.false_eq_true, if_false]
  exact .pure id none rest

theorem askForFile_leads_some (line : String) (rest : Keyboard) :
    Leads id (askForFile : Dialogue Keyboard ω IoError _)
      (Text.bytes "y\n" :: Text.bytes line :: rest) (some (Text.trim line)) rest := by
  have yes : isYes "y\n" = true := by decide
  apply (Leads.writeLine _ _).bind
  apply (Leads.prompt _ _).bind
  apply (nextLine_leads _ _).bind
  simp only [yes, if_true]
  exact (Leads.prompt _ _).bind ((nextLine_leads _ _).bind (.pure id _ _))

theorem loadPrompted_leads_typed (files : FileReader) {ws : List Word} {lines : List String}
    (typedFor : List.Forall₂ TypedFor ws lines) (ordinary : ∀ w ∈ ws, w.value ≠ -999999)
    (fits : ws.length ≤ capacity) (rest : Keyboard) :
    Leads .io (loadPrompted files : Dialogue Keyboard ω LoadError Program)
      (Text.bytes "n\n" :: (typed lines ++ (closing ws.length ++ rest))) ⟨ws, []⟩ rest :=
  ((askForFile_leads_none _).withError LoadError.io).bind
    ((enter_leads typedFor ordinary fits rest).withError LoadError.io)

theorem loadPrompted_leads_named {files : FileReader} {line : String} {ws : List Word}
    (holds : FileHolds files (Text.trim line) ws) (fits : ws.length ≤ capacity) (rest : Keyboard) :
    Leads .io (loadPrompted files : Dialogue Keyboard ω LoadError Program)
      (Text.bytes "y\n" :: Text.bytes line :: rest) ⟨ws, []⟩ rest :=
  ((askForFile_leads_some line rest).withError LoadError.io).bind
    ⟨_, loadFile_tells holds fits _ rest⟩

end Program

end DecimalMachine
