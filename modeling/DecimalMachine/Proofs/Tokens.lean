import Mathlib.Data.List.TakeWhile
import DecimalMachine.Proofs.Lines
import DecimalMachine.Text.Blank

/-!
Tokens: the pieces between the blanks of a text, and how they lie in its lines.

A newline is a blank, so that no token goes over the end of a line: the tokens of a text are those
of its lines, one line after another. A line with a single token is that token once it is trimmed.
-/

namespace DecimalMachine.Text

/-! ### Between the blanks -/

theorem cut_eq_splitOnP (cs : List Char) :
    ∃ piece pieces, cs.splitOnP isBlank = piece :: pieces ∧
      cut cs = (piece, pieces.filter fun piece => !piece.isEmpty) := by
  induction cs with
  | nil => exact ⟨[], [], List.splitOnP_nil, rfl⟩
  | cons c cs ih =>
    obtain ⟨piece, pieces, split, here⟩ := ih
    have own : cut (c :: cs) = cutBefore c (cut cs) := rfl
    rw [own, here, List.splitOnP_cons_eq_if_modifyHead, split]
    by_cases blank : isBlank c
    · refine ⟨[], piece :: pieces, by rw [if_pos blank], ?_⟩
      cases piece <;> simp [cutBefore, blank, pushToken]
    · refine ⟨c :: piece, pieces, by rw [if_neg blank]; rfl, ?_⟩
      simp [cutBefore, blank]

theorem tokenChars_eq_splitOnP (cs : List Char) :
    tokenChars cs = (cs.splitOnP isBlank).filter fun piece => !piece.isEmpty := by
  obtain ⟨piece, pieces, split, here⟩ := cut_eq_splitOnP cs
  rw [tokenChars, here, split]
  cases piece <;> simp [pushToken]

theorem filterMap_tokens {α : Type} {f : String → Option α} (nothing : f "" = none)
    (text : String) : (tokens text).filterMap f =
      (text.toList.splitOnP isBlank).filterMap fun piece => f (String.ofList piece) := by
  rw [tokens, tokenChars_eq_splitOnP, List.filterMap_map, List.filterMap_filter]
  congr 1
  funext piece
  cases piece with
  | nil => exact nothing.symm
  | cons c piece => rfl

theorem tokenChars_blank {c : Char} (blank : isBlank c) (cs : List Char) :
    tokenChars (c :: cs) = tokenChars cs :=
  tokenChars_append_blank [] blank cs

theorem tokenChars_blanks {cs : List Char} (blanks : ∀ c ∈ cs, isBlank c) (ds : List Char) :
    tokenChars (cs ++ ds) = tokenChars ds := by
  induction cs with
  | nil => rfl
  | cons c cs ih =>
    obtain ⟨blank, rest⟩ := List.forall_mem_cons.mp blanks
    rw [List.cons_append, tokenChars_blank blank, ih rest]

theorem tokenChars_append_blanks {cs ds : List Char} (blanks : ∀ c ∈ ds, isBlank c) :
    tokenChars (cs ++ ds) = tokenChars cs := by
  cases ds with
  | nil => rw [List.append_nil]
  | cons d ds =>
    obtain ⟨blank, rest⟩ := List.forall_mem_cons.mp blanks
    have none : tokenChars (ds ++ []) = tokenChars [] := tokenChars_blanks rest []
    rw [List.append_nil] at none
    rw [tokenChars_append_blank cs blank, none]
    exact List.append_nil _

theorem tokenChars_eq_nil_iff {cs : List Char} : tokenChars cs = [] ↔ ∀ c ∈ cs, isBlank c := by
  constructor
  · intro none
    induction cs with
    | nil => nofun
    | cons c cs ih =>
      by_cases blank : isBlank c
      · rw [tokenChars_blank blank] at none
        exact List.forall_mem_cons.mpr ⟨blank, ih none⟩
      · -- A character that is not blank begins a token.
        have own : cut (c :: cs) = cutBefore c (cut cs) := rfl
        simp [tokenChars, own, cutBefore, blank, pushToken] at none
  · intro blanks
    have none := tokenChars_blanks blanks []
    rw [List.append_nil] at none
    exact none

/-! ### A single token -/

theorem tokenChars_letter {c : Char} (letter : isBlank c = false) (cs : List Char) :
    ∃ token rest, c :: cs = token ++ rest ∧ token ≠ [] ∧ (∀ d ∈ token, isBlank d = false) ∧
      tokenChars (c :: cs) = token :: tokenChars rest := by
  -- The token goes up to the first blank; the rest is empty or begins with that blank.
  have split := List.takeWhile_append_dropWhile (p := fun d => !isBlank d) (l := c :: cs)
  have first : (c :: cs).takeWhile (fun d => !isBlank d) ≠ [] := by simp [letter]
  have letters : ∀ d ∈ (c :: cs).takeWhile (fun d => !isBlank d), isBlank d = false := by
    intro d mem
    simpa using List.all_eq_true.mp List.all_takeWhile d mem
  refine ⟨_, _, split.symm, first, letters, ?_⟩
  generalize (c :: cs).takeWhile (fun d => !isBlank d) = token at split first letters ⊢
  cases rest : (c :: cs).dropWhile fun d => !isBlank d with
  | nil =>
    rw [rest, List.append_nil] at split
    rw [← split, tokenChars_of_token first letters]
    rfl
  | cons d ds =>
    have blank : isBlank d := by
      have stop := List.head?_dropWhile_not (fun d => !isBlank d) (c :: cs)
      simpa [rest] using stop
    rw [rest] at split
    rw [← split, tokenChars_append_blank token blank, tokenChars_of_token first letters,
      tokenChars_blank blank]
    rfl

theorem of_tokenChars_singleton {cs token : List Char} (single : tokenChars cs = [token]) :
    ∃ before after, cs = before ++ (token ++ after) ∧ (∀ c ∈ before, isBlank c) ∧
      (∀ c ∈ after, isBlank c) ∧ token ≠ [] ∧ ∀ c ∈ token, isBlank c = false := by
  induction cs with
  | nil => cases single
  | cons c cs ih =>
    by_cases blank : isBlank c
    · rw [tokenChars_blank blank] at single
      obtain ⟨before, after, rfl, leading, rest⟩ := ih single
      exact ⟨c :: before, after, rfl, List.forall_mem_cons.mpr ⟨blank, leading⟩, rest⟩
    · obtain ⟨run, after, split, nonempty, letters, first⟩ :=
        tokenChars_letter (Bool.eq_false_iff.mpr blank) cs
      rw [first] at single
      obtain ⟨rfl, none⟩ := List.cons.inj single
      exact ⟨[], after, split, nofun, tokenChars_eq_nil_iff.mp none, nonempty, letters⟩

theorem dropWhile_letter {cs : List Char} (nonempty : cs ≠ [])
    (letters : ∀ c ∈ cs, isBlank c = false) (ds : List Char) :
    (cs ++ ds).dropWhile isBlank = cs ++ ds := by
  obtain ⟨c, rest, rfl⟩ := List.exists_cons_of_ne_nil nonempty
  simp [letters c List.mem_cons_self]

theorem trimChars_of_singleton {cs token : List Char} (single : tokenChars cs = [token]) :
    trimChars cs = token := by
  obtain ⟨before, after, rfl, leading, trailing, nonempty, letters⟩ :=
    of_tokenChars_singleton single
  have reversed : token.reverse ≠ [] := by simpa using nonempty
  have kept := dropWhile_letter reversed (by simpa using letters) []
  rw [List.append_nil] at kept
  rw [trimChars, List.dropWhile_append_of_pos leading, dropWhile_letter nonempty letters,
    List.reverse_append, List.dropWhile_append_of_pos (by simpa using trailing), kept,
    List.reverse_reverse]

theorem trimChars_of_nil {cs : List Char} (none : tokenChars cs = []) : trimChars cs = [] := by
  rw [trimChars, List.dropWhile_eq_nil_iff.mpr (tokenChars_eq_nil_iff.mp none)]
  rfl

theorem trim_of_single {text : String} (single : (tokens text).length ≤ 1) :
    (tokens text = [] ∧ trim text = "") ∨ tokens text = [trim text] := by
  rw [tokens, List.length_map] at single
  cases found : tokenChars text.toList with
  | nil => exact .inl ⟨by rw [tokens, found]; rfl, by rw [trim, trimChars_of_nil found]⟩
  | cons token rest =>
    have last : rest = [] := by
      rw [found] at single
      exact List.length_eq_zero_iff.mp (Nat.le_zero.mp (Nat.le_of_succ_le_succ single))
    subst last
    exact .inr (by rw [tokens, found, trim, trimChars_of_singleton found]; rfl)

/-! ### The lines of a text -/

def charBefore (c : Char) : List (List Char) → List (List Char)
  | [] => [[c]]
  | line :: rest => if c = '\n' then [c] :: line :: rest else (c :: line) :: rest

def textLineChars (cs : List Char) : List (List Char) := cs.foldr charBefore []

/-- The lines of a text, each with its newline; the last one may lack it. -/
def textLines (text : String) : List String := (textLineChars text.toList).map String.ofList

inductive HasLines : List Char → List (List Char) → Prop where
  | empty : HasLines [] []
  | unended {line : List Char} (nonempty : line ≠ []) (flat : '\n' ∉ line) : HasLines line [line]
  | ended {line cs : List Char} {rest : List (List Char)} (flat : '\n' ∉ line)
      (others : HasLines cs rest) : HasLines (line ++ '\n' :: cs) ((line ++ ['\n']) :: rest)

theorem HasLines.cons {cs : List Char} {ls : List (List Char)} (c : Char) (has : HasLines cs ls) :
    HasLines (c :: cs) (charBefore c ls) := by
  by_cases newline : c = '\n'
  · subst newline
    have ended := HasLines.ended List.not_mem_nil has
    cases has <;> exact ended
  · have longer {line : List Char} (flat : '\n' ∉ line) : '\n' ∉ c :: line := by
      simpa [newline, eq_comm] using flat
    cases has with
    | empty => exact .unended (List.cons_ne_nil c []) (longer List.not_mem_nil)
    | unended nonempty flat =>
      rw [charBefore, if_neg newline]
      exact .unended (List.cons_ne_nil c _) (longer flat)
    | ended flat others =>
      rw [charBefore, if_neg newline]
      exact .ended (longer flat) others

theorem hasLines (cs : List Char) : HasLines cs (textLineChars cs) := by
  induction cs with
  | nil => exact .empty
  | cons c cs ih => exact ih.cons c

theorem HasLines.tokenChars {cs : List Char} {ls : List (List Char)} (has : HasLines cs ls) :
    tokenChars cs = ls.flatMap Text.tokenChars := by
  have blank : isBlank '\n' := by decide
  induction has with
  | empty => rfl
  | unended => simp
  | @ended line cs rest flat others ih =>
    have own : Text.tokenChars (line ++ ['\n']) = Text.tokenChars line := by
      apply tokenChars_append_blanks
      simpa using blank
    rw [tokenChars_append_blank line blank, ih, List.flatMap_cons, own]

theorem tokens_eq_flatMap_textLines (text : String) :
    tokens text = (textLines text).flatMap tokens := by
  rw [tokens, (hasLines text.toList).tokenChars, List.map_flatMap, textLines, List.flatMap_map]
  simp [tokens]

theorem lines_flat {line : List UInt8} (nonempty : line ≠ []) (flat : newline ∉ line) :
    lines line = [line] := by
  induction line with
  | nil => contradiction
  | cons b line ih =>
    have other : b ≠ newline := fun same => flat (same ▸ List.mem_cons_self)
    change lineBefore b (lines line) = _
    cases line with
    | nil => rfl
    | cons c line =>
      rw [ih (List.cons_ne_nil c line) fun mem => flat (List.mem_cons_of_mem b mem), lineBefore,
        if_neg other]

/-- The bytes are these lines. Each of them ends with its newline and has no other; the last one may
lack it. -/
inductive InLines : List UInt8 → List Line → Prop where
  | empty : InLines [] []
  | unended {line : Line} (nonempty : line ≠ []) (flat : newline ∉ line) : InLines line [line]
  | ended {line bytes : List UInt8} {rest : List Line} (flat : newline ∉ line)
      (others : InLines bytes rest) :
      InLines (line ++ newline :: bytes) ((line ++ [newline]) :: rest)

theorem inLines_lines (bytes : List UInt8) : InLines bytes (lines bytes) := by
  -- By induction on the length: behind the first newline there are fewer bytes.
  generalize size : bytes.length = n
  induction n using Nat.strong_induction_on generalizing bytes with
  | _ n ih =>
    by_cases ended : newline ∈ bytes
    · obtain ⟨line, rest, rfl, flat⟩ := List.eq_append_cons_of_mem ended
      rw [lines_line flat]
      refine .ended flat (ih rest.length ?_ rest rfl)
      rw [← size, List.length_append, List.length_cons]
      omega
    · by_cases nothing : bytes = []
      · subst nothing
        exact .empty
      · rw [lines_flat nothing ended]
        exact .unended nothing ended

theorem HasLines.lines {cs : List Char} {ls : List (List Char)} (has : HasLines cs ls) :
    Text.lines (bytes (String.ofList cs)) = ls.map fun line => bytes (String.ofList line) := by
  have encoded (line : List Char) :
      bytes (String.ofList line) = line.flatMap String.utf8EncodeChar := by
    rw [bytes_eq, String.toList_ofList]
  have flat_text {line : List Char} (flat : '\n' ∉ line) : Flat (String.ofList line) := by
    rw [Flat, String.toList_ofList]
    exact flat
  induction has with
  | empty => rw [encoded]; rfl
  | @unended line nonempty flat =>
    have some_byte : bytes (String.ofList line) ≠ [] := by
      obtain ⟨c, rest, rfl⟩ := List.exists_cons_of_ne_nil nonempty
      rw [encoded, List.flatMap_cons]
      simp
    exact lines_flat some_byte (newline_not_mem_bytes (flat_text flat))
  | @ended line cs rest flat others ih =>
    -- No byte of another character is a newline, so that the first line ends with this one.
    have first : String.ofList (line ++ ['\n']) = String.ofList line ++ "\n" :=
      String.ofList_append
    have whole : bytes (String.ofList (line ++ '\n' :: cs)) =
        bytes (String.ofList line ++ "\n") ++ bytes (String.ofList cs) := by
      rw [← first, encoded, encoded, encoded, ← List.flatMap_append, List.append_assoc]
      simp only [List.singleton_append]
    rw [whole, lines_typed (flat_text flat), ih, List.map_cons, first]

theorem lines_bytes (text : String) : lines (bytes text) = (textLines text).map bytes := by
  have has := (hasLines text.toList).lines
  rw [String.ofList_toList] at has
  rw [has, textLines, List.map_map]
  rfl

end DecimalMachine.Text
