import DecimalMachine.Proofs.Truncation

/-!
The loaders as dialogues that go through tidy moments, whatever their input is.
-/

namespace DecimalMachine

variable {ι ω ε α β : Type} [Sink ω]

/-- From this input the dialogue goes through some moments, all of them tidy. -/
def Speaks (raise : IoError → ε) (act : Dialogue ι ω ε α) (input : ι) : Prop :=
  ∃ ms settled input', Tells raise act input ms settled input' ∧ ∀ m ∈ ms, m.said.Tidy

namespace Speaks

variable {raise : IoError → ε} {act : Dialogue ι ω ε α} {input : ι}

theorem silent (settled : Except ε α) (input' : ι) (quiet : ∀ output journal, ∃ journal',
    act ⟨input, output, journal⟩ = resultOf settled ⟨input', output, journal'⟩) :
    Speaks raise act input :=
  ⟨[], settled, input', .silent quiet, nofun⟩

theorem pure (a : α) : Speaks raise (Pure.pure a : Dialogue ι ω ε α) input :=
  silent (.ok a) input fun _ journal => ⟨journal, rfl⟩

theorem note (e : Event) : Speaks raise (Console.note e : Dialogue ι ω ε Unit) input :=
  silent (.ok ()) input fun _ journal => ⟨journal.note e, rfl⟩

theorem bind {next : α → Dialogue ι ω ε β} (first : Speaks raise act input)
    (rest : ∀ a input', Speaks raise (next a) input') : Speaks raise (act >>= next) input := by
  obtain ⟨ms, settled, input', tells, tidy⟩ := first
  cases settled with
  | error e => exact ⟨ms, .error e, input', tells.bind_error, tidy⟩
  | ok a =>
    obtain ⟨ms', settled', input'', tells', tidy'⟩ := rest a input'
    exact ⟨ms ++ ms', settled', input'', tells.bind tells',
      List.forall_mem_append.mpr ⟨tidy, tidy'⟩⟩

theorem withError {ε' : Type} (f : ε → ε') (inner : Speaks raise act input) :
    Speaks (f ∘ raise) (act.withError f) input := by
  obtain ⟨ms, settled, input', tells, tidy⟩ := inner
  exact ⟨ms, settled.mapError f, input', .withError f tells, tidy⟩

theorem same (act' : Dialogue ι ω ε α)
    (agree : ∀ output journal, act ⟨input, output, journal⟩ = act' ⟨input, output, journal⟩)
    (other : Speaks raise act' input) : Speaks raise act input := by
  obtain ⟨ms, settled, input', tells, tidy⟩ := other
  exact ⟨ms, settled, input', .same agree tells, tidy⟩

theorem prompt {text : String} (flat : Flat text) (nonempty : text ≠ "") :
    Speaks id (Console.prompt text : Dialogue ι ω IoError Unit) input := by
  refine ⟨_, _, _, .prompt text input, ?_⟩
  simp only [List.forall_mem_cons]
  exact ⟨.start flat nonempty, .flush, nofun⟩

theorem writeLines {lines : List String} (flat : ∀ line ∈ lines, Flat line) :
    Speaks id (Console.writeLines lines : Dialogue ι ω IoError Unit) input := by
  refine ⟨_, _, _, .writeLines lines input, ?_⟩
  simp only [List.mem_map]
  rintro _ ⟨line, mem, rfl⟩
  exact .line (flat line mem)

theorem writeLine {line : String} (flat : Flat line) :
    Speaks id (Console.writeLine line : Dialogue ι ω IoError Unit) input :=
  ⟨_, _, _, .write (line ++ "\n") input, by simpa using .line flat⟩

end Speaks

namespace Program

theorem entryPrompt_ne (location : Nat) : entryPrompt location ≠ "" := by
  simp [entryPrompt]

theorem leave_speaks (rest input : Keyboard) :
    Speaks id (leave rest : Dialogue Keyboard ω IoError Unit) input :=
  .silent (.ok ()) rest fun _ journal => ⟨journal, rfl⟩

theorem enterFrom_speaks (words : List Word) (lines input : Keyboard) :
    Speaks id (enterFrom words lines : Dialogue Keyboard ω IoError _) input := by
  induction lines generalizing words input with
  | nil =>
    unfold enterFrom
    split
    · exact .pure words
    · exact (Speaks.prompt (flat_entryPrompt _) (entryPrompt_ne _)).bind fun _ _ =>
        (Speaks.note _).bind fun _ _ => .pure words
  | cons line rest ih =>
    unfold enterFrom
    split
    · exact .pure words
    · apply (Speaks.prompt (flat_entryPrompt _) (entryPrompt_ne _)).bind
      intro _ _
      apply (leave_speaks rest _).bind
      intro _ _
      split
      · exact .silent (.error .invalidUtf8) _ fun _ journal => ⟨journal, rfl⟩
      · split
        · exact ih _ _
        · exact .pure words
        · exact (Speaks.writeLine (by decide)).bind fun _ _ => ih words _
        · exact (Speaks.writeLine (by decide)).bind fun _ _ => ih words _

theorem enter_speaks (input : Keyboard) :
    Speaks id (enter : Dialogue Keyboard ω IoError _) input := by
  apply (Speaks.writeLines flat_entryHeading).bind
  intro _ input'
  have rest : Speaks id (do
      let words ← enterFrom [] input'
      Console.note (.entered words.length)
      return ({ words } : Program) : Dialogue Keyboard ω IoError _) input' :=
    (enterFrom_speaks [] input' input').bind fun _ _ => (Speaks.note _).bind fun _ _ => .pure _
  exact .same _ (fun _ _ => by rfl) rest

theorem nextLine_speaks (input : Keyboard) :
    Speaks id (nextLine : Dialogue Keyboard ω IoError _) input := by
  cases input with
  | nil => exact .silent (.ok "") [] fun _ journal => ⟨journal, rfl⟩
  | cons line rest =>
    cases text : Text.ofUtf8? line with
    | none =>
      refine .silent (.error .invalidUtf8) rest fun _ journal => ⟨journal, ?_⟩
      simp only [nextLine, text, resultOf]
    | some text' =>
      refine .silent (.ok text') rest fun _ journal => ⟨journal, ?_⟩
      simp only [nextLine, text, resultOf]

theorem askForFile_speaks (input : Keyboard) :
    Speaks id (askForFile : Dialogue Keyboard ω IoError _) input := by
  apply (Speaks.writeLine (by decide)).bind
  intro _ _
  apply (Speaks.prompt (by decide) (by decide)).bind
  intro _ _
  apply (nextLine_speaks _).bind
  intro answer _
  split
  · exact (Speaks.prompt (by decide) (by decide)).bind fun _ _ =>
      (nextLine_speaks _).bind fun _ _ => .pure _
  · exact .pure none

theorem loadFile_speaks (raise : IoError → LoadError) (files : FileReader) (path : String)
    (input : ι) : Speaks raise (loadFile files path : Dialogue ι ω LoadError _) input := by
  unfold loadFile
  split
  · exact .silent (.error _) input fun _ journal => ⟨journal, rfl⟩
  · split
    · exact .silent (.error _) input fun _ journal => ⟨journal, rfl⟩
    · have noted (es : List Event) :
          Speaks raise (Console.noteAll es : Dialogue ι ω LoadError Unit) input :=
        .silent (.ok ()) input fun _ journal => ⟨journal.noteAll es, rfl⟩
      exact (noted _).bind fun _ _ => (Speaks.note _).bind fun _ _ => .pure _

theorem loadPrompted_speaks (files : FileReader) (input : Keyboard) :
    Speaks .io (loadPrompted files : Dialogue Keyboard ω LoadError _) input := by
  unfold loadPrompted
  apply ((askForFile_speaks input).withError LoadError.io).bind
  intro path _
  cases path with
  | some path => exact loadFile_speaks _ files path _
  | none => exact (enter_speaks _).withError LoadError.io

end Program

end DecimalMachine
