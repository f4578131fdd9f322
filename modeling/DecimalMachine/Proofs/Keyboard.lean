import DecimalMachine.Proofs.Entry
import DecimalMachine.Proofs.Reliable

/-!
What keyboard entry reads and what it writes, for any bytes that are typed.

The sentinel, the word that fills the page and a line that is no text end the entry. Every line up
to there is asked for by the number of words in front of it, and a line that is no word is answered.
What stands behind the last line stays unread.
-/

namespace DecimalMachine

namespace Program

open Text (Line)

/-! ### Typed lines -/

def typedInteger (line : Line) : Option Int :=
  (Text.ofUtf8? line).bind fun text => (Decimal.int64? (Text.trim text)).map Int64.toInt

/-- The integer that a line adds to the program: one in range that is not the sentinel. -/
def typedValue (line : Line) : Option Int :=
  (typedInteger line).filter fun z => decide (-999999 < z ∧ z ≤ 999999)

def accepted (lines : List Line) : List Int := lines.filterMap typedValue

/-- With `n` words in front of it, this line is the last that is read. -/
inductive EndsEntry (n : Nat) (line : Line) : Prop where
  | sentinel (typed : typedInteger line = some (-999999))
  | full {z : Int} (last : n = 99) (word : typedValue line = some z)
  | noText (undecoded : Text.ofUtf8? line = none)

/-- With `n` words in front of them, none of these lines ends the entry. -/
def GoesOn (n : Nat) (lines : List Line) : Prop :=
  ∀ before line, before ++ [line] <+: lines → ¬ EndsEntry (n + (accepted before).length) line

def question (n : Nat) : String := (if n < 10 then "0" else "") ++ toString n ++ " ? "

def answer (line : Line) : String :=
  match Text.ofUtf8? line, typedInteger line with
  | none, _ => ""
  | some _, none => "Invalid input. Please enter a valid integer.\n"
  | some _, some z =>
    if -999999 ≤ z ∧ z ≤ 999999 then ""
    else "Invalid instruction. Please enter a number between -999999 and +999999.\n"

/-- What is written while these lines are read behind `n` words: the question for each of them,
which counts the words in front of it, and its answer. -/
def exchange (n : Nat) (read : List Line) : String :=
  String.join (read.mapIdx fun i line =>
    question (n + (accepted (read.take i)).length) ++ answer line)

/-- Of these lines, entry behind `n` words reads `read` and leaves `unread`: it stops behind the
first line that ends it, or it reads them all and asks in vain for another one. -/
inductive EntryReads (n : Nat) : (lines read unread : List Line) → (closing : String) → Prop where
  | ended {before : List Line} {line : Line} (unread : List Line) (goesOn : GoesOn n before)
      (ends : EndsEntry (n + (accepted before).length) line) :
      EntryReads n (before ++ line :: unread) (before ++ [line]) unread ""
  | all {lines : List Line} (goesOn : GoesOn n lines) :
      EntryReads n lines lines [] (question (n + (accepted lines).length))

/-- What entry comes to that reads these lines: the accepted integers as words, unless a line is no
text. -/
inductive EntryGives (read : List Line) : Except IoError (List Word) → Prop where
  | words {ws : List Word} (texts : ∀ line ∈ read, Text.ofUtf8? line ≠ none)
      (values : ws.map Word.value = accepted read) : EntryGives read (.ok ws)
  | noText {line : Line} (mem : line ∈ read) (undecoded : Text.ofUtf8? line = none) :
      EntryGives read (.error .invalidUtf8)

def opening : String :=
  "*** Please enter your program one instruction (or data word) at a time ***\n" ++
    "*** Type -999999 to stop entering your program ***\n"

variable {n : Nat} {line : Line} {lines rest : List Line}

theorem accepted_cons (line : Line) (rest : List Line) :
    accepted (line :: rest) = (typedValue line).toList ++ accepted rest := by
  cases value : typedValue line <;> simp [accepted, value]

theorem count_cons (n : Nat) (line : Line) (rest : List Line) :
    n + (accepted (line :: rest)).length =
      n + (typedValue line).toList.length + (accepted rest).length := by
  rw [accepted_cons, List.length_append, Nat.add_assoc]

theorem accepted_concat (before : List Line) (line : Line) :
    accepted (before ++ [line]) = accepted before ++ (typedValue line).toList := by
  rw [accepted, List.filterMap_append]
  exact congrArg _ ((accepted_cons line []).trans (List.append_nil _))

theorem bounds_of_accepted {z : Int} (mem : z ∈ accepted lines) : -999999 < z ∧ z ≤ 999999 := by
  obtain ⟨line, -, value⟩ := List.mem_filterMap.mp mem
  simpa using (Option.filter_eq_some_iff.mp value).2

theorem exchange_cons (n : Nat) (line : Line) (rest : List Line) :
    exchange n (line :: rest) =
      question n ++ answer line ++ exchange (n + (typedValue line).toList.length) rest := by
  simp only [exchange, List.mapIdx_cons, String.join_cons, List.take_zero, List.take_succ_cons,
    count_cons]
  rfl

theorem exchange_single (n : Nat) (line : Line) :
    exchange n [line] = question n ++ answer line := by
  rw [exchange_cons]
  exact String.append_empty

theorem exchange_append (n : Nat) (before after : List Line) :
    exchange n (before ++ after) =
      exchange n before ++ exchange (n + (accepted before).length) after := by
  induction before generalizing n with
  | nil => exact String.empty_append.symm
  | cons line rest ih =>
    rw [List.cons_append, exchange_cons, exchange_cons, ih, count_cons]
    exact String.append_assoc.symm

theorem entryPrompt_eq (n : Nat) : entryPrompt n = question n := by
  have sign : locationNumeral.sign n = [] := if_neg (Int.not_lt.mpr (Int.natCast_nonneg n))
  have written : (toString n).toList = Nat.toDigits 10 n := Nat.toList_repr
  have numeral : locationNumeral.write n = (if n < 10 then "0" else "") ++ toString n := by
    apply String.toList_injective
    rw [Decimal.Numeral.write, String.toList_ofList, Decimal.Numeral.chars, Decimal.digits, sign,
      Int.natAbs_natCast, String.toList_append, written]
    by_cases single : n < 10
    · rw [if_pos single, Nat.toDigits_of_lt_base single]
      rfl
    · have wide : ¬ (Nat.toDigits 10 n).length ≤ 1 := fun short =>
        single ((Nat.length_toDigits_le_iff (by decide) (by decide)).mp short)
      have filled : 2 - (0 + (Nat.toDigits 10 n).length) = 0 := by omega
      rw [if_neg single, List.length_nil, locationNumeral, filled]
      rfl
  rw [entryPrompt, numeral]
  rfl

/-! ### Where entry stops -/

theorem endsEntry_iff : EndsEntry n line ↔ typedInteger line = some (-999999) ∨
    (n = 99 ∧ (typedValue line).isSome) ∨ Text.ofUtf8? line = none := by
  constructor
  · rintro (typed | ⟨last, value⟩ | undecoded)
    · exact .inl typed
    · exact .inr (.inl ⟨last, Option.isSome_of_eq_some value⟩)
    · exact .inr (.inr undecoded)
  · rintro (typed | ⟨last, value⟩ | undecoded)
    · exact .sentinel typed
    · exact .full last (Option.eq_some_of_isSome value)
    · exact .noText undecoded

instance (n : Nat) (line : Line) : Decidable (EndsEntry n line) :=
  decidable_of_iff _ endsEntry_iff.symm

theorem GoesOn.nil : GoesOn n [] := by
  intro before line inside
  have nonempty : before ++ [line] ≠ [] := by simp
  exact absurd (List.prefix_nil.mp inside) nonempty

theorem goesOn_cons : GoesOn n (line :: rest) ↔
    ¬ EndsEntry n line ∧ GoesOn (n + (typedValue line).toList.length) rest := by
  constructor
  · intro goesOn
    refine ⟨goesOn [] line (List.prefix_append [line] rest), fun before last inside => ?_⟩
    have later := goesOn (line :: before) last (List.cons_prefix_cons.mpr ⟨rfl, inside⟩)
    rwa [count_cons] at later
  · rintro ⟨first, others⟩ before last inside
    cases before with
    | nil =>
      obtain ⟨rfl, -⟩ := List.cons_prefix_cons.mp inside
      exact first
    | cons head before =>
      obtain ⟨rfl, shorter⟩ := List.cons_prefix_cons.mp inside
      rw [count_cons]
      exact others before last shorter

instance decidableGoesOn : (n : Nat) → (lines : List Line) → Decidable (GoesOn n lines)
  | _, [] => isTrue .nil
  | n, line :: rest =>
    have := decidableGoesOn (n + (typedValue line).toList.length) rest
    decidable_of_iff _ goesOn_cons.symm

theorem room_behind (goesOn : ¬ EndsEntry n line) (room : n < 100) :
    n + (typedValue line).toList.length < 100 := by
  cases value : typedValue line with
  | none => exact room
  | some z =>
    have other : n ≠ 99 := fun last => goesOn (.full last value)
    change n + 1 < 100
    omega

theorem GoesOn.room (goesOn : GoesOn n lines) (room : n < 100) :
    n + (accepted lines).length < 100 := by
  induction lines generalizing n with
  | nil => exact room
  | cons line rest ih =>
    obtain ⟨first, others⟩ := goesOn_cons.mp goesOn
    rw [count_cons]
    exact ih others (room_behind first room)

theorem GoesOn.texts (goesOn : GoesOn n lines) : ∀ line ∈ lines, Text.ofUtf8? line ≠ none := by
  intro line mem undecoded
  obtain ⟨before, after, rfl⟩ := List.append_of_mem mem
  exact goesOn before line ⟨after, by simp⟩ (.noText undecoded)

theorem exists_entryReads (n : Nat) (lines : List Line) :
    ∃ read unread closing, EntryReads n lines read unread closing := by
  induction lines generalizing n with
  | nil => exact ⟨_, _, _, .all .nil⟩
  | cons line rest ih =>
    by_cases ends : EndsEntry n line
    · exact ⟨_, _, _, @EntryReads.ended n [] line rest .nil ends⟩
    · obtain ⟨read, unread, closing, reads⟩ := ih (n + (typedValue line).toList.length)
      cases reads with
      | @ended before last unread goesOn last_ends =>
        refine ⟨_, _, _, @EntryReads.ended n (line :: before) last unread
          (goesOn_cons.mpr ⟨ends, goesOn⟩) ?_⟩
        rwa [count_cons]
      | all goesOn => exact ⟨_, _, _, .all (goesOn_cons.mpr ⟨ends, goesOn⟩)⟩

theorem EntryReads.lines_eq {read unread : List Line} {closing : String}
    (reads : EntryReads n lines read unread closing) : lines = read ++ unread := by
  cases reads with
  | ended unread goesOn ends => exact List.append_cons _ _ _
  | all goesOn => exact (List.append_nil _).symm

theorem EntryReads.length_le {read unread : List Line} {closing : String}
    (reads : EntryReads 0 lines read unread closing) : (accepted read).length ≤ 100 := by
  cases reads with
  | @ended before line unread goesOn ends =>
    have room := goesOn.room (by decide)
    have single : (typedValue line).toList.length ≤ 1 := Option.length_toList_le
    rw [accepted_concat, List.length_append]
    omega
  | all goesOn =>
    have room := goesOn.room (by decide)
    omega

/-! ### One line -/

theorem typedValue_of_typed {z : Int} (typed : typedInteger line = some z) :
    typedValue line = if -999999 < z ∧ z ≤ 999999 then some z else none := by
  rw [typedValue, typed, Option.filter_some]
  simp

theorem typedValue_of_no_integer (typed : typedInteger line = none) : typedValue line = none := by
  rw [typedValue, typed, Option.filter_none]

theorem answer_of_typed {z : Int} (typed : typedInteger line = some z) :
    answer line = if -999999 ≤ z ∧ z ≤ 999999 then "" else
      "Invalid instruction. Please enter a number between -999999 and +999999.\n" := by
  obtain ⟨text, decoded, -⟩ := Option.bind_eq_some_iff.mp typed
  simp only [answer, decoded, typed]

theorem line_of_word {w : Word} (typed : typedInteger line = some w.value)
    (other : w.value ≠ -999999) : typedValue line = some w.value ∧ answer line = "" := by
  have lower := w.lower
  have upper := w.upper
  rw [typedValue_of_typed typed, answer_of_typed typed]
  exact ⟨if_pos (by omega), if_pos (by omega)⟩

inductive TakenFor (line : Line) : Entry → Prop where
  | word {w : Word} (typed : typedInteger line = some w.value) (other : w.value ≠ -999999) :
      TakenFor line (.word w)
  | sentinel (typed : typedInteger line = some (-999999)) : TakenFor line .sentinel
  | notInteger (typed : typedInteger line = none)
      (answered : answer line = "Invalid input. Please enter a valid integer.\n") :
      TakenFor line .notInteger
  | outOfRange {z : Int} (typed : typedInteger line = some z)
      (outside : ¬ (-999999 ≤ z ∧ z ≤ 999999)) : TakenFor line .outOfRange

theorem ofText_taken {text : String} (decoded : Text.ofUtf8? line = some text) :
    TakenFor line (Entry.ofText text) := by
  have typed : typedInteger line = (Decimal.int64? (Text.trim text)).map Int64.toInt := by
    rw [typedInteger, decoded, Option.bind_some]
  unfold Entry.ofText
  cases integer : Decimal.int64? (Text.trim text) with
  | none =>
    rw [integer, Option.map_none] at typed
    exact .notInteger typed (by simp only [answer, decoded, typed])
  | some v =>
    rw [integer, Option.map_some] at typed
    by_cases ends : v = sentinel
    · rw [ends] at typed ⊢
      exact .sentinel typed
    · simp only [if_neg ends]
      by_cases inside : inRange v
      · obtain ⟨w, made, same⟩ := ofInt64_of_inRange inside
        rw [made]
        refine .word (typed.trans (congrArg some same.symm)) fun last => ends ?_
        exact Int64.toInt_inj.mp (same.symm.trans last)
      · rw [ofInt64_of_outside (Bool.eq_false_iff.mpr inside)]
        exact .outOfRange typed (by simpa [inRange] using inside)

theorem TakenFor.eq_sentinel {entry : Entry} (taken : TakenFor line entry)
    (ends : typedInteger line = some (-999999)) : entry = .sentinel := by
  cases taken with
  | word typed other => exact absurd (Option.some.inj (typed.symm.trans ends)) other
  | sentinel typed => rfl
  | notInteger typed answered => cases typed.symm.trans ends
  | outOfRange typed outside =>
    rw [Option.some.inj (typed.symm.trans ends)] at outside
    exact absurd (by decide) outside

theorem TakenFor.eq_word {entry : Entry} (taken : TakenFor line entry) {z : Int}
    (value : typedValue line = some z) : ∃ w, entry = .word w ∧ w.value = z ∧ answer line = "" := by
  cases taken with
  | @word w typed other =>
    obtain ⟨same, silent⟩ := line_of_word typed other
    exact ⟨w, rfl, Option.some.inj (same.symm.trans value), silent⟩
  | sentinel typed => cases value.symm.trans (typedValue_of_typed typed)
  | notInteger typed answered => cases value.symm.trans (typedValue_of_no_integer typed)
  | @outOfRange z typed outside =>
    have none := typedValue_of_typed typed
    rw [if_neg (by omega)] at none
    cases value.symm.trans none

/-! ### A run of lines -/

variable {ω : Type} {holds : ω → String → Prop}

theorem leave_comes (unread input : Keyboard) :
    Comes holds (leave unread) input (.ok ()) unread "" := by
  intro output journal text held
  exact ⟨output, journal, rfl, by simpa using held⟩

section Reading

variable [Sink ω] (reliable : Reliable holds)

include reliable

theorem question_comes (n : Nat) (input : Keyboard) :
    Comes holds (Console.prompt (entryPrompt n)) input (.ok ()) input (question n) := by
  rw [entryPrompt_eq]
  exact Comes.prompt reliable _

theorem enterFrom_line {words : List Word} (room : words.length < 100)
    (goesOn : ¬ EndsEntry words.length line) (rest : List Line) :
    ∃ taken : List Word, taken.map Word.value = (typedValue line).toList ∧
      ∀ {settled unread said},
        Comes holds (enterFrom (words ++ taken) rest) rest settled unread said →
        Comes holds (enterFrom words (line :: rest)) (line :: rest) settled unread
          (question words.length ++ answer line ++ said) := by
  cases decoded : Text.ofUtf8? line with
  | none => exact absurd (.noText decoded) goesOn
  | some text =>
    have asked := question_comes reliable words.length (line :: rest)
    have left : Comes holds (leave rest) _ _ _ _ := leave_comes rest (line :: rest)
    have taken := ofText_taken decoded
    have space : ¬ capacity ≤ words.length := Nat.not_le_of_lt room
    simp only [enterFrom, decoded, if_neg space]
    generalize Entry.ofText text = entry at taken ⊢
    cases taken with
    | @word w typed other =>
      obtain ⟨value, silent⟩ := line_of_word typed other
      refine ⟨[w], by rw [value]; rfl, fun others => ?_⟩
      exact asked.bind (left.bind others rfl) (by simp [silent])
    | sentinel typed => exact absurd (.sentinel typed) goesOn
    | notInteger typed answered =>
      refine ⟨[], by rw [typedValue_of_no_integer typed]; rfl, fun others => ?_⟩
      rw [List.append_nil] at others
      exact asked.bind (left.bind ((Comes.write reliable _).bind others rfl) rfl)
        (by simp [answered, String.append_assoc])
    | @outOfRange z typed outside =>
      have none : typedValue line = none := by
        rw [typedValue_of_typed typed, if_neg (by omega)]
      have answered := answer_of_typed typed
      rw [if_neg outside] at answered
      refine ⟨[], by rw [none]; rfl, fun others => ?_⟩
      rw [List.append_nil] at others
      exact asked.bind (left.bind ((Comes.write reliable _).bind others rfl) rfl)
        (by simp [answered, String.append_assoc])

theorem enterFrom_lines {words : List Word} (room : words.length < 100) {before : List Line}
    (goesOn : GoesOn words.length before) (rest : List Line) :
    ∃ taken : List Word, taken.map Word.value = accepted before ∧
      ∀ {settled unread said},
        Comes holds (enterFrom (words ++ taken) rest) rest settled unread said →
        Comes holds (enterFrom words (before ++ rest)) (before ++ rest) settled unread
          (exchange words.length before ++ said) := by
  -- By induction on the lines: each of them leaves the next one behind the words that it adds.
  induction before generalizing words with
  | nil =>
    refine ⟨[], rfl, fun others => ?_⟩
    rw [List.append_nil] at others
    rw [exchange, List.mapIdx_nil, String.join_nil, String.empty_append]
    exact others
  | cons line before ih =>
    obtain ⟨first, later⟩ := goesOn_cons.mp goesOn
    obtain ⟨taken, value, step⟩ := enterFrom_line reliable room first (before ++ rest)
    have length : (words ++ taken).length = words.length + (typedValue line).toList.length := by
      rw [List.length_append, ← value, List.length_map]
    rw [← length] at later
    obtain ⟨taken', values, run⟩ := ih (length ▸ room_behind first room) later
    refine ⟨taken ++ taken', ?_, fun others => ?_⟩
    · rw [List.map_append, value, values, accepted_cons]
    · rw [← List.append_assoc] at others
      rw [exchange_cons, ← length, String.append_assoc]
      exact step (run others)

theorem enterFrom_last {words : List Word} (room : words.length < 100) {before : List Line}
    (texts : ∀ line ∈ before, Text.ofUtf8? line ≠ none)
    (values : words.map Word.value = accepted before) (ends : EndsEntry words.length line)
    (unread : List Line) :
    ∃ settled, EntryGives (before ++ [line]) settled ∧
      Comes holds (enterFrom words (line :: unread)) (line :: unread) settled unread
        (question words.length ++ answer line) := by
  have asked := question_comes reliable words.length (line :: unread)
  have left : Comes holds (leave unread) _ _ _ _ := leave_comes unread (line :: unread)
  have space : ¬ capacity ≤ words.length := Nat.not_le_of_lt room
  have texts_last {text : String} (decoded : Text.ofUtf8? line = some text) :
      ∀ l ∈ before ++ [line], Text.ofUtf8? l ≠ none :=
    List.forall_mem_append.mpr ⟨texts, List.forall_mem_singleton.mpr (by simp [decoded])⟩
  cases ends with
  | sentinel typed =>
    obtain ⟨text, decoded, -⟩ := Option.bind_eq_some_iff.mp typed
    have value : typedValue line = none := typedValue_of_typed typed
    have silent : answer line = "" := answer_of_typed typed
    refine ⟨.ok words, .words (texts_last decoded) ?_, ?_⟩
    · rw [accepted_concat, value, values]
      exact (List.append_nil _).symm
    · simp only [enterFrom, decoded, if_neg space, (ofText_taken decoded).eq_sentinel typed]
      exact asked.bind (left.bind (.pure _) rfl) (by simp [silent])
  | @full z last value =>
    obtain ⟨text, decoded, -⟩ := Option.bind_eq_some_iff.mp (Option.filter_eq_some_iff.mp value).1
    obtain ⟨w, taken, same, silent⟩ := (ofText_taken decoded).eq_word value
    have full : capacity ≤ (words ++ [w]).length := by
      rw [List.length_append, last]
      exact Nat.le_refl 100
    refine ⟨.ok (words ++ [w]), .words (texts_last decoded) ?_, ?_⟩
    · rw [accepted_concat, value, List.map_append, values, ← same]
      rfl
    · simp only [enterFrom, decoded, if_neg space, taken, enterFrom_full full]
      exact asked.bind (left.bind (.pure _) rfl) (by simp [silent])
  | noText undecoded =>
    have silent : answer line = "" := by simp only [answer, undecoded]
    refine ⟨_, .noText (List.mem_append_right before (List.mem_singleton_self line)) undecoded, ?_⟩
    simp only [enterFrom, undecoded, if_neg space]
    exact asked.bind (left.bind (.throw _) rfl) (by simp [silent])

theorem enterFrom_end {words : List Word} (room : words.length < 100) :
    Comes holds (enterFrom words []) [] (.ok words) [] (question words.length) := by
  have space : ¬ capacity ≤ words.length := Nat.not_le_of_lt room
  simp only [enterFrom, if_neg space]
  exact (question_comes reliable _ _).bind ((Comes.note _).bind (.pure words) rfl)
    String.append_empty

theorem enterFrom_reads {read unread : List Line} {closing : String}
    (reads : EntryReads 0 lines read unread closing) :
    ∃ settled, EntryGives read settled ∧
      Comes holds (enterFrom [] lines) lines settled unread (exchange 0 read ++ closing) := by
  have start : ([] : List Word).length < 100 := by decide
  cases reads with
  | @ended before line unread goesOn ends =>
    obtain ⟨taken, values, run⟩ := enterFrom_lines reliable start goesOn (line :: unread)
    have count : ([] ++ taken).length = 0 + (accepted before).length := by
      rw [List.nil_append, ← values, List.length_map, Nat.zero_add]
    have room : ([] ++ taken).length < 100 := count ▸ goesOn.room (by decide)
    obtain ⟨settled, gives, last⟩ :=
      enterFrom_last reliable room goesOn.texts values (count ▸ ends) unread
    refine ⟨settled, gives, ?_⟩
    rw [exchange_append, exchange_single, ← count, String.append_empty]
    exact run last
  | all goesOn =>
    obtain ⟨taken, values, run⟩ := enterFrom_lines reliable start goesOn []
    have count : ([] ++ taken).length = 0 + (accepted lines).length := by
      rw [List.nil_append, ← values, List.length_map, Nat.zero_add]
    have room : ([] ++ taken).length < 100 := count ▸ goesOn.room (by decide)
    rw [List.append_nil, List.nil_append] at run
    refine ⟨.ok taken, .words goesOn.texts values, ?_⟩
    rw [← count]
    exact run (enterFrom_end reliable room)

theorem enter_comes {settled : Except IoError (List Word)} {unread : List Line} {said : String}
    (entered : Comes holds (enterFrom [] lines) lines settled unread said) :
    Comes holds enter lines (settled.map fun words => ⟨words, []⟩) unread (opening ++ said) := by
  have headed : Comes holds (Console.writeLines entryHeading) lines (.ok ()) lines opening :=
    Comes.writeLines reliable entryHeading
  have behind : Comes holds (do
      let words ← enterFrom [] lines
      Console.note (.entered words.length)
      return ({ words } : Program)) lines (settled.map fun words => ⟨words, []⟩) unread said := by
    cases settled with
    | error e => exact entered.bind_error
    | ok words => exact entered.bind ((Comes.note _).bind (.pure _) rfl) String.append_empty
  exact headed.bind (fun output journal text held => behind output journal text held) rfl

end Reading

/-- Keyboard entry reads the lines that were typed up to the first that ends it, which is the
sentinel, the line of the hundredth word or a line that is no text; or it reads them all. Every byte
behind that line stays unread. Its words are the integers in range of the lines that were read,
without the sentinel, and none is rejected; only a line that is no text makes it fail. It writes its
opening, and for each line the question that counts the words so far and the answer. -/
theorem entry_reads [Sink ω] (reliable : Reliable holds) (bytes : List UInt8) :
    Text.InLines bytes (Text.lines bytes) ∧
    (∃ read unread closing, EntryReads 0 (Text.lines bytes) read unread closing) ∧
    ∀ read unread closing, EntryReads 0 (Text.lines bytes) read unread closing →
      bytes = read.flatten ++ unread.flatten ∧
      ∃ settled : Except IoError (List Word), EntryGives read settled ∧
        (∀ words, settled = .ok words → words.length ≤ 100 ∧ ∀ w ∈ words, w.value ≠ -999999) ∧
        Comes holds enter (Text.lines bytes) (settled.map fun words => ⟨words, []⟩) unread
          (opening ++ (exchange 0 read ++ closing)) := by
  refine ⟨Text.inLines_lines bytes, exists_entryReads 0 _, fun read unread closing reads => ?_⟩
  obtain ⟨settled, gives, entered⟩ := enterFrom_reads reliable reads
  refine ⟨?_, settled, gives, ?_, enter_comes reliable entered⟩
  · rw [← List.flatten_append, ← reads.lines_eq, Text.flatten_lines]
  · rintro words rfl
    cases gives with
    | words texts values =>
      constructor
      · rw [← List.length_map, values]
        exact reads.length_le
      · intro w mem
        have entered : w.value ∈ accepted read := values ▸ List.mem_map_of_mem mem
        exact Int.ne_of_gt (bounds_of_accepted entered).1

-- A word, a line that is no integer, an integer out of range, and the sentinel.
def typedLines : List Line := ["+7\n", "abc\n", "1000000\n", " -999999\n"].map Text.bytes

theorem entry_reads_sentinel :
    Comes Transcript.Holds enter (Text.lines (typedLines.flatten ++ [255]))
      (.ok ⟨[7].map Word.ofInt, []⟩) [[255]]
      (opening ++ ("00 ? 01 ? Invalid input. Please enter a valid integer.\n" ++
        "01 ? Invalid instruction. Please enter a number between -999999 and +999999.\n" ++
        "01 ? ")) := by
  have lines : Text.lines (typedLines.flatten ++ [255]) =
      typedLines.take 3 ++ Text.bytes " -999999\n" :: [[255]] := by decide
  have reads : EntryReads 0 (Text.lines (typedLines.flatten ++ [255])) typedLines [[255]] "" := by
    rw [lines]
    exact .ended _ (by decide) (by decide)
  have said : exchange 0 typedLines ++ "" =
      "00 ? 01 ? Invalid input. Please enter a valid integer.\n" ++
        "01 ? Invalid instruction. Please enter a number between -999999 and +999999.\n" ++
        "01 ? " := by decide
  obtain ⟨-, settled, gives, -, comes⟩ := (entry_reads Transcript.reliable _).2.2 _ _ _ reads
  rw [said] at comes
  cases gives with
  | @words ws texts same =>
    have values : accepted typedLines = [7] := by decide
    have entered : ws = [7].map Word.ofInt := words_ext (same.trans values)
    rw [entered] at comes
    exact comes
  | noText mem undecoded =>
    have texts : ∀ line ∈ typedLines, Text.ofUtf8? line ≠ none := by decide
    exact absurd undecoded (texts _ mem)

end Program

end DecimalMachine
