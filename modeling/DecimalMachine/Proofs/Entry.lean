import DecimalMachine.Proofs.Loading
import DecimalMachine.Proofs.Recital
import DecimalMachine.Proofs.Scan

/-!
Keyboard entry of a whole text, and the same text read from a file.

They agree on a text that has one token at most on each line, and no sentinel: a line that is
trimmed is then its token, so that both ways take the same integers for words and pass the same ones
over.
-/

namespace DecimalMachine

namespace Program

/-- Of these lines, entry for `n` words asks for `read` and leaves `unread`: it ends with the line
that has the `n`-th word, or with the last line if there are fewer. -/
inductive EntryEnds (n : Nat) : (lines read unread : List String) → Prop where
  | full {before : List String} {line : String} (unread : List String)
      (count : (before.flatMap integers).countP inRange + 1 = n)
      (last : (integers line).countP inRange = 1) :
      EntryEnds n (before ++ line :: unread) (before ++ [line]) unread
  | all {lines : List String} (few : (lines.flatMap integers).countP inRange < n) :
      EntryEnds n lines lines []

theorem EntryEnds.cons {n m : Nat} {lines read unread : List String} (line : String)
    (ends : EntryEnds m lines read unread) (room : n = m + (integers line).countP inRange) :
    EntryEnds n (line :: lines) (line :: read) unread := by
  cases ends with
  | full unread count last =>
    rw [← List.cons_append, ← List.cons_append]
    refine .full unread ?_ last
    rw [List.flatMap_cons, List.countP_append, room]
    omega
  | all few =>
    refine .all ?_
    rw [List.flatMap_cons, List.countP_append, room]
    omega

theorem EntryEnds.filter_read {n : Nat} {lines read unread : List String}
    (ends : EntryEnds n lines read unread) :
    (read.flatMap integers).filter inRange = ((lines.flatMap integers).filter inRange).take n := by
  cases ends with
  | @full before line unread count last =>
    have taken : (((before ++ [line]).flatMap integers).filter inRange).length = n := by
      rw [← List.countP_eq_length_filter, List.flatMap_append, List.countP_append,
        List.flatMap_singleton, last, count]
    rw [List.append_cons before line unread, @List.flatMap_append _ _ (before ++ [line]),
      List.filter_append, List.take_left' taken]
  | all few =>
    rw [List.take_of_length_le]
    rw [← List.countP_eq_length_filter]
    omega

theorem EntryEnds.of_enough {n : Nat} {lines read unread : List String}
    (ends : EntryEnds n lines read unread) (enough : n ≤ (lines.flatMap integers).countP inRange) :
    ∃ before line, lines = before ++ line :: unread ∧
      (before.flatMap integers).countP inRange + 1 = n ∧ (integers line).countP inRange = 1 := by
  cases ends with
  | full unread count last => exact ⟨_, _, rfl, count, last⟩
  | all few => exact absurd enough (Nat.not_le_of_lt few)

theorem EntryEnds.of_few {n : Nat} {lines read unread : List String}
    (ends : EntryEnds n lines read unread) (few : (lines.flatMap integers).countP inRange < n) :
    unread = [] := by
  cases ends with
  | full unread count last =>
    rw [List.flatMap_append, List.flatMap_cons, List.countP_append, List.countP_append] at few
    omega
  | all few => rfl

/-- What a line with one token at most is taken for: the word that is its only integer, or a line
without a word, which does not end the entry. -/
inductive SingleEntry (line : String) : Entry → Prop where
  | word {w : Word} {v : Int64} (only : integers line = [v]) (inside : inRange v)
      (value : w.value = v.toInt) : SingleEntry line (.word w)
  | refused {entry : Entry} (answered : entry = .notInteger ∨ entry = .outOfRange)
      (none : (integers line).filter inRange = []) : SingleEntry line entry

theorem ofText_single {line : String} (single : (Text.tokens line).length ≤ 1)
    (ordinary : sentinel ∉ integers line) : SingleEntry line (Entry.ofText line) := by
  have trimmed : integers line = (Decimal.int64? (Text.trim line)).toList := by
    rw [integers_eq]
    rcases Text.trim_of_single single with ⟨none, empty⟩ | only
    · rw [none, empty]
      rfl
    · rw [only]
      cases value : Decimal.int64? (Text.trim line) with
      | none => rw [List.filterMap_cons_none value]; rfl
      | some v => rw [List.filterMap_cons_some value]; rfl
  unfold Entry.ofText
  cases value : Decimal.int64? (Text.trim line) with
  | none =>
    rw [value] at trimmed
    exact .refused (.inl rfl) (by rw [trimmed]; rfl)
  | some v =>
    rw [value] at trimmed
    have other : v ≠ sentinel := by
      rintro rfl
      exact ordinary (trimmed ▸ List.mem_singleton_self _)
    simp only [if_neg other]
    by_cases inside : inRange v
    · obtain ⟨w, made, same⟩ := ofInt64_of_inRange inside
      rw [made]
      exact .word trimmed inside same
    · have outside := Bool.eq_false_iff.mpr inside
      rw [ofInt64_of_outside outside]
      exact .refused (.inr rfl) (by simp [trimmed, outside])

variable {ω : Type} [Sink ω]

theorem enterFrom_full {words : List Word} (full : capacity ≤ words.length) (lines : Keyboard) :
    (enterFrom words lines : Dialogue Keyboard ω IoError _) = pure words := by
  cases lines <;> exact if_pos full

theorem enterFrom_leads_lines (words : List Word) {lines : List String}
    (single : ∀ line ∈ lines, (Text.tokens line).length ≤ 1)
    (ordinary : ∀ line ∈ lines, sentinel ∉ integers line) (room : words.length < capacity) :
    ∃ read unread taken, EntryEnds (capacity - words.length) lines read unread ∧
      taken.map Word.value = ((read.flatMap integers).filter inRange).map Int64.toInt ∧
      Leads id (enterFrom words (lines.map Text.bytes) : Dialogue Keyboard ω IoError _)
        (lines.map Text.bytes) (words ++ taken) (unread.map Text.bytes) := by
  -- By induction on the lines still to come, for whatever words have been entered before them.
  induction lines generalizing words with
  | nil =>
    refine ⟨[], [], [], .all (Nat.sub_pos_of_lt room), rfl, ?_⟩
    rw [List.append_nil, List.map_nil, enterFrom, if_neg (Nat.not_le_of_lt room)]
    exact (Leads.prompt _ _).bind ((Leads.note id _ _).bind (.pure id _ _))
  | cons line rest ih =>
    obtain ⟨single_first, single⟩ := List.forall_mem_cons.mp single
    obtain ⟨ordinary_first, ordinary⟩ := List.forall_mem_cons.mp ordinary
    have entry := ofText_single single_first ordinary_first
    simp only [List.map_cons, enterFrom, if_neg (Nat.not_le_of_lt room), Text.ofUtf8?_bytes]
    generalize Entry.ofText line = e at entry ⊢
    cases entry with
    | @word w v only inside value =>
      have one : (integers line).countP inRange = 1 := by simp [only, inside]
      have length : (words ++ [w]).length = words.length + 1 := by simp
      by_cases full : capacity ≤ (words ++ [w]).length
      · -- This is the word that fills the page.
        have filled : Leads id (enterFrom (words ++ [w]) (rest.map Text.bytes) :
            Dialogue Keyboard ω IoError _) (rest.map Text.bytes) (words ++ [w])
            (rest.map Text.bytes) := by
          rw [enterFrom_full full]
          exact .pure id _ _
        refine ⟨[line], rest, [w], @EntryEnds.full _ [] line rest ?_ one,
          by simp [only, inside, value], (Leads.prompt _ _).bind ((leave_leads _ _).bind filled)⟩
        rw [List.flatMap_nil, List.countP_nil]
        omega
      · obtain ⟨read, unread, taken, ends, values, leads⟩ :=
          ih (words ++ [w]) single ordinary (Nat.lt_of_not_le full)
        refine ⟨line :: read, unread, w :: taken, ends.cons line (by omega),
          by simp [only, inside, value, values], ?_⟩
        rw [List.append_cons]
        exact (Leads.prompt _ _).bind ((leave_leads _ _).bind leads)
    | refused answered none =>
      obtain ⟨read, unread, taken, ends, values, leads⟩ := ih words single ordinary room
      have passed : (integers line).countP inRange = 0 := by
        rw [List.countP_eq_length_filter, none]
        rfl
      refine ⟨line :: read, unread, taken, ends.cons line (by omega), by simp [none, values], ?_⟩
      rcases answered with rfl | rfl <;>
        exact (Leads.prompt _ _).bind ((leave_leads _ _).bind ((Leads.writeLine _ _).bind leads))

theorem enter_leads_lines {lines : List String}
    (single : ∀ line ∈ lines, (Text.tokens line).length ≤ 1)
    (ordinary : ∀ line ∈ lines, sentinel ∉ integers line) :
    ∃ read unread words, EntryEnds capacity lines read unread ∧
      words.map Word.value =
        (((lines.flatMap integers).filter inRange).take capacity).map Int64.toInt ∧
      Leads id (enter : Dialogue Keyboard ω IoError Program) (lines.map Text.bytes) ⟨words, []⟩
        (unread.map Text.bytes) := by
  obtain ⟨read, unread, words, ends, values, leads⟩ :=
    enterFrom_leads_lines (ω := ω) [] single ordinary (by decide)
  rw [List.nil_append] at leads
  have behind : Leads id (do
      let words ← enterFrom [] (lines.map Text.bytes)
      Console.note (.entered words.length)
      return ({ words } : Program) : Dialogue Keyboard ω IoError Program)
      (lines.map Text.bytes) ⟨words, []⟩ (unread.map Text.bytes) :=
    leads.bind ((Leads.note id _ _).bind (.pure id _ _))
  refine ⟨read, unread, words, ends, by rw [values, ends.filter_read]; rfl, ?_⟩
  exact (Leads.writeLines _ _).bind (.same _ (fun _ _ => by rfl) behind)

theorem words_ext {ws ws' : List Word} (same : ws.map Word.value = ws'.map Word.value) : ws = ws' :=
  List.map_injective_iff.mpr (fun _ _ => Word.ext) same

/-- A text with one token at most on each line, and no sentinel, gives the same words from the
keyboard as from a file. If they fill the page, what is left unread is what stands behind the line
of the word that fills it; otherwise nothing is left. -/
theorem typed_like_file {holds : ω → String → Prop} (reliable : Reliable holds) {text : String}
    (single : ∀ line ∈ Text.textLines text, (Text.tokens line).length ≤ 1)
    (ordinary : sentinel ∉ integers text) :
    ∃ program unread said,
      Comes holds enter (Text.lines (Text.bytes text)) (.ok program) unread said ∧
      program.words = (ofText text).words ∧
      (100 ≤ (integers text).countP inRange → ∃ before line after,
        Text.textLines text = before ++ line :: after ∧
        (before.flatMap integers).countP inRange = 99 ∧ (integers line).countP inRange = 1 ∧
        unread = after.map Text.bytes ∧
        Text.bytes text = (before.flatMap Text.bytes ++ Text.bytes line) ++ unread.flatten) ∧
      ((integers text).countP inRange < 100 → unread = []) := by
  have none_ends : ∀ line ∈ Text.textLines text, sentinel ∉ integers line := by
    intro line mem ends
    rw [integers_lines, List.mem_flatMap] at ordinary
    exact ordinary ⟨line, mem, ends⟩
  obtain ⟨read, unread, words, ends, values, ms, tells⟩ :=
    enter_leads_lines (ω := ω) single none_ends
  rw [← Text.lines_bytes] at tells
  rw [← integers_lines] at values
  refine ⟨_, _, _, tells.comes reliable, words_ext (values.trans (ofText_words text).symm), ?_, ?_⟩
  · intro enough
    rw [integers_lines] at enough
    obtain ⟨before, line, split, count, last⟩ := ends.of_enough enough
    have stream := Text.flatten_lines (Text.bytes text)
    rw [Text.lines_bytes, split] at stream
    refine ⟨before, line, unread, split, Nat.succ_inj.mp count, last, rfl, ?_⟩
    rw [← stream]
    simp [List.flatMap_def]
  · intro few
    rw [integers_lines] at few
    rw [ends.of_few few]
    rfl

-- A sign, leading zeros, no integer, an empty line, an integer that is no word, white space of
-- other kinds, and no newline at the end.
def mixedText : String := "+0100007\n\u00a0abc\u2003\n\n1000000\n -450000"

theorem typed_like_file_mixed :
    (∀ line ∈ Text.textLines mixedText, (Text.tokens line).length ≤ 1) ∧
    sentinel ∉ integers mixedText ∧
    ∃ program said, Comes Transcript.Holds enter (Text.lines (Text.bytes mixedText))
      (.ok program) [] said ∧
      program.words = (ofText mixedText).words ∧
      program.words.map Word.value = [100007, -450000] := by
  have single : ∀ line ∈ Text.textLines mixedText, (Text.tokens line).length ≤ 1 := by decide
  have ordinary : sentinel ∉ integers mixedText := by decide
  have few : (integers mixedText).countP inRange < 100 := by decide
  have words : (ofText mixedText).words.map Word.value = [100007, -450000] := by decide
  obtain ⟨program, unread, said, comes, same, -, behind⟩ :=
    typed_like_file Transcript.reliable single ordinary
  rw [behind few] at comes
  exact ⟨single, ordinary, program, said, comes, same, by rw [same, words]⟩

end Program

end DecimalMachine
