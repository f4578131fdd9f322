import DecimalMachine.Proofs.Lockstep
import DecimalMachine.Proofs.Texts

/-!
Outputs that close after a number of lines.

A call that goes through some moments says at such an output what it says at any other, up to the
line that closes it. `CutAfter` compares the two, and `cutAfter_of_recited` draws it from what the
call does at every output.
-/

namespace DecimalMachine

variable {ι ω ε α : Type}

/-! ### Texts cut behind a line -/

namespace Text

def throughLineChars : Nat → List Char → List Char
  | 0, _ => []
  | _ + 1, [] => []
  | n + 1, c :: cs => c :: throughLineChars (if c = '\n' then n else n + 1) cs

/-- The text up to its `n`-th newline, or all of it if it has fewer. -/
def throughLine (n : Nat) (text : String) : String :=
  String.ofList (throughLineChars n text.toList)

theorem throughLine_zero (text : String) : throughLine 0 text = "" := by
  simp [throughLine, throughLineChars]

theorem throughLine_empty (n : Nat) : throughLine n "" = "" := by
  cases n <;> rfl

theorem throughLineChars_flat (n : Nat) {cs : List Char} (flat : '\n' ∉ cs) (rest : List Char) :
    throughLineChars (n + 1) (cs ++ rest) = cs ++ throughLineChars (n + 1) rest := by
  induction cs with
  | nil => rfl
  | cons c cs ih =>
    have other : c ≠ '\n' := fun same => flat (same ▸ List.mem_cons_self)
    rw [List.cons_append, throughLineChars, if_neg other,
      ih fun mem => flat (List.mem_cons_of_mem c mem), List.cons_append]

theorem throughLine_flat (n : Nat) {text : String} (flat : Flat text) (rest : String) :
    throughLine (n + 1) (text ++ rest) = text ++ throughLine (n + 1) rest := by
  simp only [throughLine, String.toList_append, throughLineChars_flat n flat, String.ofList_append,
    String.ofList_toList]

theorem throughLine_line (n : Nat) {text : String} (flat : Flat text) (rest : String) :
    throughLine (n + 1) (text ++ "\n" ++ rest) = text ++ "\n" ++ throughLine n rest := by
  have newline : throughLine (n + 1) ("\n" ++ rest) = "\n" ++ throughLine n rest := by
    rw [throughLine, String.toList_append, throughLine, ← String.ofList_toList (s := "\n"),
      ← String.ofList_append, String.toList_ofList]
    rfl
  rw [String.append_assoc, throughLine_flat n flat, newline, String.append_assoc]

end Text

/-! ### Writes and lines -/

/-- A write of one line, or of something in front of the end of one. -/
inductive Utterance.Tidy : Utterance → Prop where
  | flush : Tidy .flush
  | line {text : String} (flat : Flat text) : Tidy (.write (text ++ "\n"))
  | start {text : String} (flat : Flat text) (nonempty : text ≠ "") : Tidy (.write text)

namespace Transcript

theorem newlines_flat {text : String} (flat : Flat text) : newlines text = 0 :=
  List.count_eq_zero.mpr flat

theorem newlines_line {text : String} (flat : Flat text) : newlines (text ++ "\n") = 1 := by
  have none : text.toList.count '\n' = 0 := newlines_flat flat
  rw [newlines, String.toList_append, List.count_append, none]
  rfl

def HasRoom (t : Transcript) (n : Nat) : Prop := t.limit = some (t.lines + n)

theorem write_full {t : Transcript} (full : t.HasRoom 0) (text : String) :
    Sink.write text t = .error t.refusal t := by
  refine write_closed ?_ text
  rw [isClosed, full]
  exact decide_eq_true (Nat.le_refl _)

theorem write_room {t : Transcript} {n : Nat} (room : t.HasRoom (n + 1)) (text : String) :
    Sink.write text t = .ok () (t.append text) := by
  refine write_open ?_ text
  rw [isClosed, room]
  exact decide_eq_false (by omega)

theorem HasRoom.append {t : Transcript} {n : Nat} {text : String}
    (room : t.HasRoom (newlines text + n)) : (t.append text).HasRoom n := by
  unfold HasRoom at *
  rw [Transcript.append, room, Nat.add_assoc]

end Transcript

/-! ### Moments at a limited output -/

inductive Accepted (n : Nat) (ms : List (Moment ι)) (o : Transcript) :
    EStateM.Result (IoError × ι) Transcript Unit → Prop where
  | whole {o' : Transcript} (all : Text.throughLine n (told ms) = told ms)
      (text : o'.text = o.text ++ told ms) : Accepted n ms o (.ok () o')
  | cut (before : List (Moment ι)) {after : List (Moment ι)} {next : Moment ι} {more : String}
      {o' : Transcript} (split : ms = before ++ next :: after) (writes : next.said = .write more)
      (part : told before = Text.throughLine n (told ms))
      (rest : Text.throughLine n (told ms) ≠ told ms)
      (text : o'.text = o.text ++ told before) : Accepted n ms o (.error (o.refusal, next.input) o')

namespace Accepted

variable {n : Nat} {rest : List (Moment ι)} {m : Moment ι} {o o' : Transcript}

theorem of_said {n' : Nat} (said : m.said.say o = .ok () o')
    (text : o'.text = o.text ++ m.said.written) (refusal : o'.refusal = o.refusal)
    (through : ∀ more, Text.throughLine n (m.said.written ++ more) =
      m.said.written ++ Text.throughLine n' more)
    (accepted : Accepted n' rest o' (recite rest o')) :
    Accepted n (m :: rest) o (recite (m :: rest) o) := by
  have whole : told (m :: rest) = m.said.written ++ told rest := by simp [told]
  have same : recite (m :: rest) o = recite rest o' := by simp only [recite, said]
  rw [same]
  generalize recite rest o' = r at accepted
  cases accepted with
  | whole all text' =>
    refine .whole ?_ ?_
    · rw [whole, through, all]
    · rw [whole, text', text, String.append_assoc]
  | @cut before after next more last split writes part left text' =>
    have first : told (m :: before) = m.said.written ++ told before := by simp [told]
    rw [refusal]
    refine .cut (m :: before) (by rw [split]; rfl) writes ?_ ?_ ?_
    · rw [whole, through, first, part]
    · rw [whole, through]
      exact fun same => left (String.append_right_inj _ |>.mp same)
    · rw [first, text', text, String.append_assoc]

theorem of_refused {more : String} (writes : m.said = .write more) (nonempty : more ≠ "")
    (full : o.HasRoom 0) : Accepted 0 (m :: rest) o (recite (m :: rest) o) := by
  have refused : recite (m :: rest) o = .error (o.refusal, m.input) o := by
    simp only [recite, writes, Utterance.say, Transcript.write_full full]
  have told_more : told (m :: rest) = more ++ told rest := by simp [told, writes, Utterance.written]
  rw [refused]
  refine .cut [] rfl writes ?_ ?_ ?_
  · rw [Text.throughLine_zero]
    rfl
  · rw [Text.throughLine_zero, told_more]
    intro same
    exact nonempty (String.append_eq_empty_iff.mp same.symm).1
  · simp [told]

end Accepted

theorem recite_accepted {ms : List (Moment ι)} (tidy : ∀ m ∈ ms, m.said.Tidy) {n : Nat}
    {o : Transcript} (room : o.HasRoom n) : Accepted n ms o (recite ms o) := by
  induction ms generalizing n o with
  | nil => exact .whole (Text.throughLine_empty n) (by simp [told])
  | cons m rest ih =>
    obtain ⟨first, others⟩ := List.forall_mem_cons.mp tidy
    obtain ⟨input, said⟩ := m
    cases first with
    | flush =>
      have said : Utterance.flush.say o = .ok () o := rfl
      refine .of_said said (by simp [Utterance.written]) rfl ?_ (ih others room)
      simp [Utterance.written]
    | @line text flat =>
      cases n with
      | zero => exact .of_refused rfl (by simp) room
      | succ n =>
        refine .of_said (Transcript.write_room room _) rfl rfl (Text.throughLine_line n flat) ?_
        apply ih others
        apply Transcript.HasRoom.append
        rw [Transcript.newlines_line flat, Nat.add_comm]
        exact room
    | @start text flat nonempty =>
      cases n with
      | zero => exact .of_refused rfl nonempty room
      | succ n =>
        refine .of_said (Transcript.write_room room _) rfl rfl (Text.throughLine_flat n flat) ?_
        apply ih others
        apply Transcript.HasRoom.append
        rw [Transcript.newlines_flat flat, Nat.zero_add]
        exact room

/-! ### Calls at two outputs -/

/-- Made at the output `o`, the call that comes to `r` elsewhere comes to the same, or to the
failure of the first of these moments that `o` refuses. -/
inductive AsRecited {σ τ : Type} [Sink ω] (raise : IoError → ε) (console : τ → Console ι ω)
    (R : σ → τ → Prop) (ms : List (Moment ι)) (r : EStateM.Result ε σ α) (o : ω) :
    EStateM.Result ε τ α → Prop where
  | taken {r' : EStateM.Result ε τ α}
      (takes : recite ms o = .ok () (console (endState r')).output) (alike : Alike R r r') :
      AsRecited raise console R ms r o r'
  | refused {e : IoError} {last : τ}
      (refuses : recite ms o = .error (e, (console last).input) (console last).output) :
      AsRecited raise console R ms r o (.error (raise e) last)

namespace AsRecited

variable {σ τ : Type} [Sink ω] {raise : IoError → ε} {console : τ → Console ι ω} {R : σ → τ → Prop}
  {ms : List (Moment ι)} {r : EStateM.Result ε σ α} {o : ω}

theorem after {ms' : List (Moment ι)} {o' : ω} {r' : EStateM.Result ε τ α}
    (takes : recite ms o = .ok () o') (rest : AsRecited raise console R ms' r o' r') :
    AsRecited raise console R (ms ++ ms') r o r' := by
  have whole : recite (ms ++ ms') o = recite ms' o' := by rw [recite_append, takes]
  cases rest with
  | taken takes' alike => exact .taken (whole.trans takes') alike
  | refused refuses => exact .refused (whole.trans refuses)

theorem refused_first (ms' : List (Moment ι)) {e : IoError} {last : τ}
    (refuses : recite ms o = .error (e, (console last).input) (console last).output) :
    AsRecited raise console R (ms ++ ms') r o (.error (raise e) last) :=
  .refused (by rw [recite_append, refuses])

end AsRecited

/-- The second call is made at an output that closes behind `n` lines, the first one at an output
that never fails. -/
structure CutAfter {σ : Type} (n : Nat) (raise : IoError → ε) (console : σ → Console ι Transcript)
    (R : σ → σ → Prop) (ms : List (Moment ι)) (r r' : EStateM.Result ε σ α) : Prop where
  told : (console (endState r)).output.text = told ms
  accepted : (console (endState r')).output.text =
    Text.throughLine n (console (endState r)).output.text
  whole : Text.throughLine n (console (endState r)).output.text =
    (console (endState r)).output.text → Alike R r r'
  /-- What is unread then is what was unread in front of the next write. -/
  cut : Text.throughLine n (console (endState r)).output.text ≠
    (console (endState r)).output.text →
    ∃ before next after more last, ms = before ++ next :: after ∧ next.said = .write more ∧
      DecimalMachine.told before = Text.throughLine n (console (endState r)).output.text ∧
      r' = .error (raise .outputClosed) last ∧ (console last).input = next.input

theorem cutAfter_of_recited {σ : Type} {raise : IoError → ε} {console : σ → Console ι Transcript}
    {R : σ → σ → Prop} {ms : List (Moment ι)} {r r' : EStateM.Result ε σ α} {n : Nat}
    (tidy : ∀ m ∈ ms, m.said.Tidy) (text : (console (endState r)).output.text = told ms)
    (recited : AsRecited raise console R ms r { limit := some n } r') :
    CutAfter n raise console R ms r r' := by
  have room : Transcript.HasRoom { limit := some n } n := congrArg some (Nat.zero_add n).symm
  have accepted := recite_accepted tidy room
  cases recited with
  | taken takes alike =>
    rw [takes] at accepted
    cases accepted with
    | whole all told' =>
      refine ⟨text, ?_, fun _ => alike, ?_⟩
      · rw [told', text, all, String.empty_append]
      · rw [text]
        exact fun cut => absurd all cut
  | @refused e last refuses =>
    rw [refuses] at accepted
    generalize unread : (console last).input = input at accepted
    generalize heard : (console last).output = o' at accepted
    cases accepted with
    | @cut before after next more o' split writes part left told' =>
      refine ⟨text, ?_, ?_,
        fun _ => ⟨before, next, after, more, last, split, writes, ?_, rfl, unread⟩⟩
      · rw [endState, heard, told', text, part, String.empty_append]
      · rw [text]
        exact fun all => absurd all left
      · rw [text, part]

end DecimalMachine
