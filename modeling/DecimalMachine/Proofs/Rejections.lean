import DecimalMachine.Proofs.Reliable
import DecimalMachine.Proofs.Scan
import DecimalMachine.Proofs.Spelling

/-!
What becomes of an integer that is spelled in a program's text.

As long as there is room for another word, an integer in range is the next word, and one out of
range is the next that is rejected, with a line of its own when the program is announced. An integer
of more than 64 bits is not told from a token that is no integer: it leaves no trace.
-/

namespace DecimalMachine

namespace Program

def append (p q : Program) : Program := ⟨p.words ++ q.words, p.rejected ++ q.rejected⟩

theorem scan_append {room : Nat} {before : List String}
    (fits : (scan room before).program.words.length < room) (rest : List String) :
    (scan room (before ++ rest)).program =
      (scan room before).program.append
        (scan (room - (scan room before).program.words.length) rest).program := by
  induction before generalizing room with
  | nil => cases room <;> rfl
  | cons token before ih =>
    obtain ⟨room, rfl⟩ := Nat.exists_eq_add_of_le' (Nat.lt_of_le_of_lt (Nat.zero_le _) fits)
    rw [List.cons_append]
    cases value : Decimal.int64? token with
    | none =>
      simp only [scan, value, Scan.skip] at fits ⊢
      exact ih fits
    | some v =>
      cases made : Word.ofInt64 v with
      | error e =>
        simp only [scan, value, made, Scan.reject] at fits ⊢
        rw [ih fits]
        rfl
      | ok w =>
        simp only [scan, value, made, Scan.accept, List.length_cons,
          Nat.add_lt_add_iff_right, Nat.add_sub_add_right] at fits ⊢
        rw [ih fits]
        rfl

variable {token : String} {z : Int}

theorem scan_word (spelled : Decimal.Spells token.toList z) (inside : -999999 ≤ z ∧ z ≤ 999999)
    (room : Nat) (rest : List String) : ∃ w, w.value = z ∧
      (scan (room + 1) (token :: rest)).program.words = w :: (scan room rest).program.words := by
  obtain ⟨v, made, rfl⟩ := Decimal.exists_toInt64? (z := z) (by omega) (by omega)
  obtain ⟨w, word, same⟩ := ofInt64_of_inRange (v := v) (by simpa [inRange] using inside)
  refine ⟨w, same, ?_⟩
  simp only [scan, Decimal.int64?_eq_some_iff.mpr spelled, word, Scan.accept]

theorem scan_rejected {v : Int64} (spelled : Decimal.Spells token.toList v.toInt)
    (outside : v.toInt < -999999 ∨ 999999 < v.toInt) (room : Nat) (rest : List String) :
    (scan (room + 1) (token :: rest)).program.rejected =
      v :: (scan (room + 1) rest).program.rejected := by
  have noWord : inRange v = false := by
    simp only [inRange, Bool.and_eq_false_iff, decide_eq_false_iff_not]
    omega
  simp only [scan, Decimal.int64?_eq_some_iff.mpr spelled, ofInt64_of_outside noWord, Scan.reject]

theorem scan_beyond (spelled : Decimal.Spells token.toList z)
    (beyond : z < -9223372036854775808 ∨ 9223372036854775807 < z) (room : Nat)
    (rest : List String) :
    (scan (room + 1) (token :: rest)).program = (scan (room + 1) rest).program := by
  have passed : Decimal.int64? token = none := by
    rw [Decimal.int64?_of_spells spelled, Decimal.toInt64?_of_beyond beyond]
  simp only [scan, passed, Scan.skip]

theorem announcement_of_rejected {p : Program} {k : Nat} {v : Int64}
    (rejected : p.rejected[k]? = some v) : p.announcement[k]? = some (rejection v) := by
  have inside := (List.getElem?_eq_some_iff.mp rejected).1
  rw [announcement, List.getElem?_append_left (by simpa using inside), List.getElem?_map, rejected]
  rfl

theorem announce_comes {ι ω : Type} [Sink ω] {holds : ω → String → Prop}
    (reliable : Reliable holds) (p : Program) (input : ι) :
    Comes holds p.announce input (.ok ()) input (String.join (p.announcement.map (· ++ "\n"))) :=
  Comes.writeLines reliable p.announcement

/-- An integer that is spelled where there is room for another word is the next word if it is in
range. If it is out of range, it is the next that is rejected and has its line in the announcement,
as long as 64 bits hold it; a longer one is dropped, and the program is what it is without that
token. -/
theorem spelled_integer_reported {ι ω : Type} [Sink ω] {holds : ω → String → Prop}
    (reliable : Reliable holds) (input : ι) {text : String} {before after : List String}
    {token : String} {z : Int} (split : Text.tokens text = before ++ token :: after)
    (spelled : Decimal.Spells token.toList z)
    (room : (scan 100 before).program.words.length < 100) :
    (-999999 ≤ z ∧ z ≤ 999999 → ∃ w, w.value = z ∧
      (ofText text).words[(scan 100 before).program.words.length]? = some w) ∧
    (z < -999999 ∨ 999999 < z → -9223372036854775808 ≤ z ∧ z ≤ 9223372036854775807 →
      ∃ v : Int64, v.toInt = z ∧
        (ofText text).rejected[(scan 100 before).program.rejected.length]? = some v ∧
        (ofText text).announcement[(scan 100 before).program.rejected.length]? =
          some ("Invalid instruction: " ++ Decimal.Numeral.plain.write z)) ∧
    (z < -9223372036854775808 ∨ 9223372036854775807 < z →
      ofText text = (scan 100 (before ++ after)).program) ∧
    Comes holds (ofText text).announce input (.ok ()) input
      (String.join ((ofText text).announcement.map (· ++ "\n"))) := by
  obtain ⟨left, more⟩ := Nat.exists_eq_add_of_lt room
  have space : 100 - (scan 100 before).program.words.length = left + 1 := by omega
  have whole : ofText text = (scan 100 before).program.append
      (scan (left + 1) (token :: after)).program := by
    rw [← space, ← scan_append room, ← split]
    rfl
  refine ⟨fun inside => ?_, fun outside bounds => ?_, fun beyond => ?_,
    announce_comes reliable _ input⟩
  · obtain ⟨w, value, words⟩ := scan_word spelled inside left after
    refine ⟨w, value, ?_⟩
    rw [whole, append, words, List.getElem?_append_right (Nat.le_refl _), Nat.sub_self]
    rfl
  · obtain ⟨v, -, rfl⟩ := Decimal.exists_toInt64? bounds.1 bounds.2
    have rejected :
        (ofText text).rejected[(scan 100 before).program.rejected.length]? = some v := by
      rw [whole, append, scan_rejected spelled outside,
        List.getElem?_append_right (Nat.le_refl _), Nat.sub_self]
      rfl
    exact ⟨v, rfl, rejected, announcement_of_rejected rejected⟩
  · rw [whole, scan_beyond spelled beyond, scan_append room, space]

theorem spelled_integer_reported_signed :
    Text.tokens "12 +0001000000 7" = ["12"] ++ "+0001000000" :: ["7"] ∧
    Decimal.Spells "+0001000000".toList 1000000 ∧
    (scan 100 ["12"]).program.words.length < 100 ∧
    ∃ v : Int64, v.toInt = 1000000 ∧ (ofText "12 +0001000000 7").rejected[0]? = some v ∧
      (ofText "12 +0001000000 7").announcement[0]? = some "Invalid instruction: 1000000" := by
  have split : Text.tokens "12 +0001000000 7" = ["12"] ++ "+0001000000" :: ["7"] := by decide
  have spelled : Decimal.Spells "+0001000000".toList 1000000 :=
    Decimal.integer?_eq_some_iff.mp (by decide)
  have room : (scan 100 ["12"]).program.words.length < 100 := by decide
  exact ⟨split, spelled, room, (spelled_integer_reported Transcript.reliable () split spelled
    room).2.1 (by decide) (by decide)⟩

/-- An integer of 64 bits and a sign is neither a word nor rejected, and the announcement does not
tell of it. -/
theorem wide_integer_dropped :
    Text.tokens "9223372036854775808" = [] ++ "9223372036854775808" :: [] ∧
    Decimal.Spells "9223372036854775808".toList 9223372036854775808 ∧
    (scan 100 []).program.words.length < 100 ∧
    (ofText "9223372036854775808").words = [] ∧ (ofText "9223372036854775808").rejected = [] ∧
    Comes Transcript.Holds (ofText "9223372036854775808").announce () (.ok ()) ()
      "Program loaded successfully.\n" := by
  have dropped : ofText "9223372036854775808" = {} := by rfl
  refine ⟨by decide, Decimal.integer?_eq_some_iff.mp (by decide), by decide, ?_, ?_, ?_⟩
  · rw [dropped]
  · rw [dropped]
  · rw [dropped]
    exact announce_comes Transcript.reliable _ ()

end Program

end DecimalMachine
