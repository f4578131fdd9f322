import Mathlib.Data.List.TakeWhile
import DecimalMachine.Json.Token

/-!
Every token is cut back out of its written form.

`cut` is the rest of a cutting that stands between two tokens. Each written token in front of a text
adds itself and leaves the cutting of that text; a bare token does so only where something follows
that ends it.
-/

namespace DecimalMachine.Json

open Decimal (Numeral digits)

/-! ### Digits -/

theorem digitChar_ne_zero : ∀ n < 10, 0 < n → Nat.digitChar n ≠ '0' := by decide

theorem digits_isDigit {n : Nat} {c : Char} (mem : c ∈ digits n) : c.isDigit = true :=
  Nat.isDigit_of_mem_toDigits (by decide) (by decide) mem

theorem digits_cons (n : Nat) :
    ∃ c rest, digits n = c :: rest ∧ c.isDigit = true ∧ (c = '0' → n = 0 ∧ rest = []) := by
  induction n using Nat.strongRecOn with
  | ind n ih =>
    by_cases single : n < 10
    · have only : digits n = [n.digitChar] := Nat.toDigits_of_lt_base single
      refine ⟨n.digitChar, [], only, digits_isDigit (only ▸ List.mem_singleton_self _), ?_⟩
      intro isZero
      by_cases positive : 0 < n
      · exact absurd isZero (digitChar_ne_zero n single positive)
      · exact ⟨by omega, rfl⟩
    · obtain ⟨c, rest, lead, isDigit, zero⟩ := ih (n / 10) (by omega)
      have split : digits n = digits (n / 10) ++ [(n % 10).digitChar] :=
        Nat.toDigits_of_base_le (by decide) (by omega)
      refine ⟨c, rest ++ [(n % 10).digitChar], by rw [split, lead]; rfl, isDigit, ?_⟩
      intro isZero
      have := (zero isZero).1
      omega

theorem isCanonical_digits (n : Nat) : isCanonical (digits n) = true := by
  obtain ⟨c, rest, lead, _, zero⟩ := digits_cons n
  have all_digits : (c :: rest).all Char.isDigit = true := by
    rw [← lead]
    exact List.all_eq_true.mpr fun _ mem => digits_isDigit mem
  rw [lead]
  by_cases isZero : c = '0'
  · obtain ⟨-, rfl⟩ := zero isZero
    rw [isZero]
    rfl
  · unfold isCanonical
    split
    · contradiction
    · rfl
    · rename_i same
      cases same
      simpa [isZero] using all_digits

theorem unsigned?_digits (negative : Bool) (n : Nat) :
    unsigned? negative (digits n) = if negative then if n = 0 then some .fraction
      else some (.integer (-(n : Int))) else some (.integer n) := by
  have value : Nat.ofDigitChars 10 (digits n) 0 = n := Nat.ofDigitChars_ten_toDigits
  have taken : (digits n).takeWhile Char.isDigit = digits n :=
    List.takeWhile_eq_self_iff.mpr fun _ mem => digits_isDigit mem
  have dropped : (digits n).dropWhile Char.isDigit = [] :=
    List.dropWhile_eq_nil_iff.mpr fun _ mem => digits_isDigit mem
  simp [unsigned?, taken, dropped, isCanonical_digits, isNumberTail, value]

theorem bare?_of_digit {c : Char} (isDigit : c.isDigit = true) (rest : List Char) :
    bare? (c :: rest) = unsigned? false (c :: rest) := by
  unfold bare?
  split
  · rename_i same; cases same; cases isDigit
  · rename_i same; cases same; cases isDigit
  · rename_i same; cases same; cases isDigit
  · rename_i same; cases same; cases isDigit
  · rfl

theorem bare?_integer (z : Int) : bare? (Numeral.plain.chars z) = some (.integer z) := by
  by_cases negative : z < 0
  · have chars : Numeral.plain.chars z = '-' :: digits z.natAbs := by
      simp [Numeral.chars, Numeral.sign, Numeral.plain, negative]
    have nonzero : z.natAbs ≠ 0 := by omega
    have value : -(z.natAbs : Int) = z := by omega
    rw [chars]
    simp only [bare?, unsigned?_digits, nonzero, if_false, if_true, value]
  · have chars : Numeral.plain.chars z = digits z.natAbs := by
      simp [Numeral.chars, Numeral.sign, Numeral.plain, negative]
    have value : (z.natAbs : Int) = z := by omega
    obtain ⟨c, rest, lead, isDigit, _⟩ := digits_cons z.natAbs
    rw [chars, lead, bare?_of_digit isDigit, ← lead, unsigned?_digits, value]
    rfl

/-! ### Cutting between tokens -/

/-- The tokens of a text in front of which these tokens were cut, the latest first. -/
def cut (done : List Token) (cs : List Char) : Option (List Token) :=
  (Cutter.feedAll ⟨done, .between⟩ cs).bind Cutter.finish

/-- A bare token in front of this text is at its end. -/
def Ends : List Char → Prop
  | [] => True
  | c :: _ => Cutter.endsBare c = true

theorem cut_cons (done : List Token) (c : Char) (cs : List Char) :
    cut done (c :: cs) = (Cutter.feedAll (Cutter.begin done c) cs).bind Cutter.finish := rfl

theorem cut_blanks (done : List Token) {blanks : List Char}
    (spaces : ∀ c ∈ blanks, isSpace c = true) (rest : List Char) :
    cut done (blanks ++ rest) = cut done rest := by
  induction blanks with
  | nil => rfl
  | cons c cs ih =>
    have first : Cutter.begin done c = ⟨done, .between⟩ :=
      if_pos (spaces c List.mem_cons_self)
    rw [List.cons_append, cut_cons, first]
    exact ih fun x mem => spaces x (List.mem_cons_of_mem c mem)

theorem begin_of_bare (done : List Token) {c : Char} (bare : Cutter.endsBare c = false) :
    Cutter.begin done c = ⟨done, .bare [c]⟩ := by
  simp only [Cutter.endsBare, Bool.or_eq_false_iff, beq_eq_false_iff_ne, Option.isSome_eq_false_iff,
    Option.isNone_iff_eq_none] at bare
  simp [Cutter.begin, bare]

theorem feedAll_bare (done : List Token) (collected : List Char) {cs : List Char}
    (bare : ∀ c ∈ cs, Cutter.endsBare c = false) (rest : List Char) :
    Cutter.feedAll ⟨done, .bare collected⟩ (cs ++ rest) =
      Cutter.feedAll ⟨done, .bare (cs.reverse ++ collected)⟩ rest := by
  induction cs generalizing collected with
  | nil => rfl
  | cons c cs ih =>
    have here : Cutter.feed ⟨done, .bare collected⟩ c = some ⟨done, .bare (c :: collected)⟩ :=
      if_neg (by simp [bare c List.mem_cons_self])
    rw [List.cons_append, Cutter.feedAll, here, Option.bind_some,
      ih _ fun x mem => bare x (List.mem_cons_of_mem c mem), List.reverse_cons, List.append_assoc]
    rfl

theorem feedAll_bare_end (done : List Token) {cs : List Char} {token : Token}
    (judged : bare? cs = some token) {rest : List Char} (ends : Ends rest) :
    (Cutter.feedAll ⟨done, .bare cs.reverse⟩ rest).bind Cutter.finish =
      cut (token :: done) rest := by
  cases rest with
  | nil => simp [Cutter.feedAll, Cutter.finish, cut, judged]
  | cons c rest =>
    have ended : Cutter.endsBare c = true := ends
    have here : Cutter.feed ⟨done, .bare cs.reverse⟩ c = some (Cutter.begin (token :: done) c) := by
      simp [Cutter.feed, ended, judged]
    rw [Cutter.feedAll, here]
    rfl

theorem cut_bare (done : List Token) {cs : List Char} {token : Token} (nonempty : cs ≠ [])
    (bare : ∀ c ∈ cs, Cutter.endsBare c = false) (judged : bare? cs = some token)
    {rest : List Char} (ends : Ends rest) :
    cut done (cs ++ rest) = cut (token :: done) rest := by
  cases cs with
  | nil => contradiction
  | cons c cs =>
    rw [List.cons_append, cut_cons, begin_of_bare done (bare c List.mem_cons_self),
      feedAll_bare done [c] (fun x mem => bare x (List.mem_cons_of_mem c mem)),
      ← List.reverse_cons, feedAll_bare_end done judged ends]

theorem bare_of_all {cs : List Char} (bare : cs.all (fun c => !Cutter.endsBare c) = true) :
    ∀ c ∈ cs, Cutter.endsBare c = false := by
  intro c mem
  simpa using List.all_eq_true.mp bare c mem

/-! ### Strings -/

theorem joined_chars (cs : List Char) : joined (cs.map .char) = some cs := by
  induction cs with
  | nil => rfl
  | cons c cs ih => rw [List.map_cons, joined, ih]; rfl

theorem hexDigit?_digitChar : ∀ n < 16, hexDigit? (Nat.digitChar n) = some n := by decide

theorem feedAll_numbered (done : List Token) (collected : List Unit16) {c : Char}
    (control : c.toNat < 0x20) (rest : List Char) :
    Cutter.feedAll ⟨done, .inString collected⟩
      ('\\' :: 'u' :: '0' :: '0' :: Nat.digitChar (c.toNat / 16) :: Nat.digitChar (c.toNat % 16) ::
        rest) = Cutter.feedAll ⟨done, .inString (.char c :: collected)⟩ rest := by
  have high := hexDigit?_digitChar (c.toNat / 16) (by omega)
  have low := hexDigit?_digitChar (c.toNat % 16) (by omega)
  have zero : hexDigit? '0' = some 0 := by decide
  have number : c.toNat / 16 * 16 + c.toNat % 16 = c.toNat := Nat.div_add_mod' ..
  have unit : Unit16.ofNat c.toNat = .char c := by
    have low_unit : ¬(0xD800 ≤ c.toNat ∧ c.toNat < 0xDC00) := by omega
    have high_unit : ¬(0xDC00 ≤ c.toNat ∧ c.toNat < 0xE000) := by omega
    simp [Unit16.ofNat, low_unit, high_unit]
  simp [Cutter.feedAll, Cutter.feed, high, low, zero, number, unit]

theorem feedAll_escaped (done : List Token) (collected : List Unit16) (c : Char)
    (rest : List Char) :
    Cutter.feedAll ⟨done, .inString collected⟩ (escaped c ++ rest) =
      Cutter.feedAll ⟨done, .inString (.char c :: collected)⟩ rest := by
  unfold escaped
  split
  all_goals try rfl
  rename_i quote backslash _ _ _ _ _
  split
  · rename_i control
    exact feedAll_numbered done collected control rest
  · rename_i printed
    have here : Cutter.feed ⟨done, .inString collected⟩ c =
        some ⟨done, .inString (.char c :: collected)⟩ := by
      simp only [Cutter.feed, if_neg quote, if_neg backslash, if_neg printed]
    rw [List.singleton_append, Cutter.feedAll, here]
    rfl

theorem feedAll_text (done : List Token) (collected : List Unit16) (cs rest : List Char) :
    Cutter.feedAll ⟨done, .inString collected⟩ (cs.flatMap escaped ++ rest) =
      Cutter.feedAll ⟨done, .inString ((cs.map .char).reverse ++ collected)⟩ rest := by
  induction cs generalizing collected with
  | nil => rfl
  | cons c cs ih =>
    rw [List.flatMap_cons, List.append_assoc, feedAll_escaped, ih, List.map_cons, List.reverse_cons,
      List.append_assoc]
    rfl

theorem cut_text (done : List Token) (text : String) (rest : List Char) :
    cut done ((Token.string (some text)).chars ++ rest) =
      cut (.string (some text) :: done) rest := by
  have quoted : (Token.string (some text)).chars ++ rest =
      '"' :: (text.toList.flatMap escaped ++ '"' :: rest) := by
    simp [Token.chars]
  have closed (collected : List Unit16) :
      Cutter.feed ⟨done, .inString collected⟩ '"' =
        some ⟨.string ((joined collected.reverse).map String.ofList) :: done, .between⟩ := rfl
  rw [quoted, cut_cons]
  change (Cutter.feedAll ⟨done, .inString []⟩ _).bind _ = _
  rw [feedAll_text, Cutter.feedAll, closed, List.append_nil, List.reverse_reverse, joined_chars,
    Option.map_some, String.ofList_toList]
  rfl

/-! ### Tokens -/

def Token.isBare : Token → Bool
  | .null | .bool _ | .integer _ | .fraction => true
  | _ => false

theorem not_endsBare_of_isDigit {c : Char} (isDigit : c.isDigit = true) :
    Cutter.endsBare c = false := by
  unfold Cutter.endsBare isSpace punctuation?
  split
  all_goals first | cases isDigit | skip
  simp only [Bool.or_eq_false_iff, beq_eq_false_iff_ne]
  refine ⟨⟨⟨⟨⟨?_, ?_⟩, ?_⟩, ?_⟩, ?_⟩, rfl⟩ <;> rintro rfl <;> cases isDigit

theorem not_endsBare_integer (z : Int) :
    ∀ c ∈ (Token.integer z).chars, Cutter.endsBare c = false := by
  intro c mem
  simp only [Token.chars, Numeral.chars, Numeral.plain, Nat.zero_sub, List.replicate_zero,
    List.append_nil, List.mem_append] at mem
  rcases mem with sign | digit
  · by_cases negative : z < 0
    · rw [Numeral.sign, if_pos negative, List.mem_singleton] at sign
      rw [sign]
      rfl
    · simp [Numeral.sign, negative] at sign
  · exact not_endsBare_of_isDigit (digits_isDigit digit)

theorem cut_token (done : List Token) (t : Token) {rest : List Char}
    (ends : t.isBare = true → Ends rest) : cut done (t.chars ++ rest) = cut (t :: done) rest := by
  cases t with
  | openArray | closeArray | openObject | closeObject | comma | colon => rfl
  | null => exact cut_bare done (by simp [Token.chars]) (bare_of_all rfl) rfl (ends rfl)
  | fraction => exact cut_bare done (by simp [Token.chars]) (bare_of_all rfl) rfl (ends rfl)
  | bool b =>
    cases b with
    | false => exact cut_bare done (by simp [Token.chars]) (bare_of_all rfl) rfl (ends rfl)
    | true => exact cut_bare done (by simp [Token.chars]) (bare_of_all rfl) rfl (ends rfl)
  | integer z =>
    have nonempty : (Token.integer z).chars ≠ [] := by
      intro empty
      have judged := bare?_integer z
      rw [show Numeral.plain.chars z = [] from empty] at judged
      cases judged
    exact cut_bare done nonempty (not_endsBare_integer z) (bare?_integer z) (ends rfl)
  | string text =>
    cases text with
    | none => rfl
    | some text => exact cut_text done text rest

end DecimalMachine.Json
