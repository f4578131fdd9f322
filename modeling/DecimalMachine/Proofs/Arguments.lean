import DecimalMachine.CommandLine.Invocation

/-!
A program in front of the options of `run`.

No option looks at the program, so that options which name none mean the same behind one.
-/

namespace DecimalMachine.Invocation

namespace RunArguments

def naming (name : String) (a : RunArguments) : RunArguments := { a with program := some name }

variable {name value argument : String} {a b : RunArguments}

theorem naming_beQuiet : (a.naming name).beQuiet = a.beQuiet.map (naming name) := by
  obtain ⟨program, quiet, maxCycles, stateFile, waiting, plain⟩ := a
  cases quiet <;> rfl

theorem naming_setMaxCycles :
    (a.naming name).setMaxCycles value = (a.setMaxCycles value).map (naming name) := by
  simp only [setMaxCycles, naming]
  split <;> rfl

theorem naming_setStateFile :
    (a.naming name).setStateFile value = (a.setStateFile value).map (naming name) := by
  rw [setStateFile, setStateFile, apply_ite (Except.map (naming name))]
  rfl

theorem naming_setWaiting (option : Waiting) :
    (a.naming name).setWaiting value option = (a.setWaiting value option).map (naming name) := by
  cases option with
  | maxCycles => exact naming_setMaxCycles
  | stateFile => exact naming_setStateFile

theorem naming_short (letters : List Char) :
    (a.naming name).short letters = (a.short letters).map (naming name) := by
  induction a, letters using short.induct with
  | case1 a => rfl
  | case2 a rest ih =>
    simp only [short, naming_beQuiet]
    cases quiet : a.beQuiet with
    | error e => rfl
    | ok b => exact ih b
  | case3 a => rfl
  | case4 a value => exact naming_setMaxCycles
  | case5 a value nonempty unequal =>
    rw [short.eq_5 _ _ nonempty unequal, short.eq_5 _ _ nonempty unequal]
    exact naming_setMaxCycles
  | case6 => rfl
  | case7 a letters empty quiet alone equal value help =>
    rw [short.eq_7 _ _ empty quiet alone equal value help,
      short.eq_7 _ _ empty quiet alone equal value help]
    rfl

theorem naming_long (option : String) (value : Option String) :
    (a.naming name).long option value = (a.long option value).map (naming name) := by
  unfold long
  split
  · exact naming_beQuiet
  · rfl
  · rfl
  · exact naming_setMaxCycles
  · rfl
  · exact naming_setStateFile
  · rfl

theorem setProgram_named (taken : a.setProgram value = .ok b) : b.program ≠ none := by
  unfold setProgram at taken
  split at taken
  · cases taken
  · cases taken
    nofun

theorem map_naming {act : Except Stop RunArguments} (named : act.map (naming name) = .ok b) :
    b.program = some name := by
  cases act with
  | error e => cases named
  | ok a =>
    cases named
    rfl

theorem next_naming (taken : a.next argument = .ok b) (unnamed : b.program = none) :
    (a.naming name).next argument = .ok (b.naming name) := by
  have behind {act : Except Stop RunArguments} (done : act = .ok b) :
      act.map (naming name) = .ok (b.naming name) := by
    rw [done]
    rfl
  have plain : (a.naming name).plain = a.plain := rfl
  have waiting : (a.naming name).waiting = a.waiting := rfl
  unfold next at taken ⊢
  rw [plain, waiting]
  split at taken
  · exact absurd unnamed (setProgram_named taken)
  · rename_i options
    rw [if_neg options]
    split at taken
    · rw [naming_setWaiting]
      exact behind taken
    · cases taken
    · exact absurd unnamed (setProgram_named taken)
    · cases taken
      rfl
    · rw [naming_long]
      exact behind taken
    · rw [naming_short]
      exact behind taken

theorem next_named (taken : (a.naming name).next argument = .ok b) : b.program ≠ none := by
  have named {act : Except Stop RunArguments} (done : act.map (naming name) = .ok b) :
      b.program ≠ none := by
    rw [map_naming done]
    nofun
  unfold next at taken
  split at taken
  · exact setProgram_named taken
  · split at taken
    · rw [naming_setWaiting] at taken
      exact named taken
    · cases taken
    · exact setProgram_named taken
    · cases taken
      nofun
    · rw [naming_long] at taken
      exact named taken
    · rw [naming_short] at taken
      exact named taken

theorem next_unnamed (taken : a.next argument = .ok b) (unnamed : b.program = none) :
    a.program = none := by
  cases program : a.program with
  | none => rfl
  | some name =>
    have same : a.naming name = a := by rw [naming, ← program]
    exact absurd unnamed (next_named (same.symm ▸ taken))

theorem all_unnamed {arguments : List String} (taken : a.all arguments = .ok b)
    (unnamed : b.program = none) : a.program = none := by
  induction arguments generalizing a with
  | nil =>
    unfold all at taken
    split at taken
    · cases taken
    · cases taken
      exact unnamed
  | cons argument rest ih =>
    unfold all at taken
    cases first : a.next argument with
    | error e => cases (congrArg (Except.bind · _) first).symm.trans taken
    | ok a' =>
      rw [first] at taken
      exact next_unnamed first (ih taken)

theorem all_naming {arguments : List String} (taken : a.all arguments = .ok b)
    (unnamed : b.program = none) : (a.naming name).all arguments = .ok (b.naming name) := by
  induction arguments generalizing a with
  | nil =>
    unfold all at taken ⊢
    split at taken
    · cases taken
    · rename_i complete
      cases taken
      exact if_neg complete
  | cons argument rest ih =>
    unfold all at taken ⊢
    cases first : a.next argument with
    | error e => cases (congrArg (Except.bind · _) first).symm.trans taken
    | ok a' =>
      rw [first] at taken
      rw [next_naming first (all_unnamed taken unnamed)]
      exact ih taken

end RunArguments

theorem Form.plain_of_not_dash {argument : String} (undashed : argument.toList.head? ≠ some '-') :
    Form.of argument = .plain := by
  unfold Form.of
  split
  · rename_i dashes
    rw [dashes] at undashed
    exact absurd rfl undashed
  · rename_i dashes
    rw [dashes] at undashed
    exact absurd rfl undashed
  · rename_i dashes
    rw [dashes] at undashed
    exact absurd rfl undashed
  · rfl

/-- A program may be put in front of options that name none. -/
theorem ofRun_naming {options : List String} {config : Config} {stateFile : Option String}
    (parsed : ofRun options = .ok (.run ⟨none, config, stateFile⟩)) {name : String}
    (undashed : name.toList.head? ≠ some '-') :
    ofRun (name :: options) = .ok (.run ⟨some name, config, stateFile⟩) := by
  unfold ofRun at parsed ⊢
  cases taken : RunArguments.all {} options with
  | error e =>
    rw [taken] at parsed
    cases parsed
  | ok a =>
    rw [taken] at parsed
    simp only [Except.map, Except.ok.injEq, Invocation.run.injEq, RunRequest.mk.injEq] at parsed
    obtain ⟨unnamed, config, stateFile⟩ := parsed
    have first : RunArguments.next {} name = .ok (RunArguments.naming name {}) := by
      simp only [RunArguments.next, Form.plain_of_not_dash undashed]
      rfl
    have whole : RunArguments.all {} (name :: options) = .ok (a.naming name) := by
      rw [RunArguments.all, first]
      exact RunArguments.all_naming taken unnamed
    simp only [whole, Except.map, RunArguments.naming, config, stateFile]

end DecimalMachine.Invocation
