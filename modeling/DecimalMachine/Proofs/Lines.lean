import DecimalMachine.Proofs.Texts
import DecimalMachine.Text.Line

/-!
Typed lines: the bytes of a text that stays on one line, with a newline behind it.

No byte of another character is a newline, so that a stream is cut behind each typed line, and every
one of them is read back as the text that was typed.
-/

namespace DecimalMachine.Text

def bytes (text : String) : List UInt8 := text.toUTF8.data.toList

theorem bytes_eq (text : String) : bytes text = text.toList.flatMap String.utf8EncodeChar := by
  have chars : text = String.ofList text.toList := String.ofList_toList.symm
  rw [bytes, String.toUTF8_eq_toByteArray]
  conv => lhs; rw [chars, String.toByteArray_ofList, List.utf8Encode]
  simp

theorem bytes_append (a b : String) : bytes (a ++ b) = bytes a ++ bytes b := by
  rw [bytes_eq, bytes_eq, bytes_eq, String.toList_append, List.flatMap_append]

theorem ofUtf8?_bytes (text : String) : ofUtf8? (bytes text) = some text := by
  simp only [ofUtf8?, bytes, Array.toArray_toList, String.fromUTF8?, String.toUTF8_eq_toByteArray,
    dif_pos text.isValidUTF8]
  rfl

theorem newline_of_mem_utf8EncodeChar {c : Char} (mem : newline ∈ String.utf8EncodeChar c) :
    c = '\n' := by
  have small {n : Nat} (same : newline = UInt8.ofNat n) : n % 256 = 10 :=
    (UInt8.toNat_ofNat'.symm.trans (congrArg UInt8.toNat same.symm))
  unfold String.utf8EncodeChar at mem
  dsimp only at mem
  split at mem
  · have value := small (List.mem_singleton.mp mem)
    apply Char.ext
    apply UInt32.toNat_inj.mp
    change c.val.toNat = 10
    omega
  · -- Every byte of a longer encoding is beyond the ASCII ones.
    exfalso
    split at mem
    · simp only [List.mem_cons, List.not_mem_nil, or_false] at mem
      rcases mem with same | same <;> have := small same <;> omega
    · split at mem
      · simp only [List.mem_cons, List.not_mem_nil, or_false] at mem
        rcases mem with same | same | same <;> have := small same <;> omega
      · simp only [List.mem_cons, List.not_mem_nil, or_false] at mem
        rcases mem with same | same | same | same <;> have := small same <;> omega

theorem newline_not_mem_bytes {text : String} (flat : Flat text) : newline ∉ bytes text := by
  rw [bytes_eq, List.mem_flatMap]
  rintro ⟨c, mem, byte⟩
  exact flat (newline_of_mem_utf8EncodeChar byte ▸ mem)

theorem lines_line {line : List UInt8} (flat : newline ∉ line) (rest : List UInt8) :
    lines (line ++ newline :: rest) = (line ++ [newline]) :: lines rest := by
  induction line with
  | nil =>
    change lineBefore newline (lines rest) = _
    cases lines rest <;> rfl
  | cons b line ih =>
    have other : b ≠ newline := fun same => flat (same ▸ List.mem_cons_self)
    change lineBefore b (lines (line ++ newline :: rest)) = _
    rw [ih fun mem => flat (List.mem_cons_of_mem b mem), lineBefore, if_neg other]
    rfl

theorem lines_typed {text : String} (flat : Flat text) (rest : List UInt8) :
    lines (bytes (text ++ "\n") ++ rest) = bytes (text ++ "\n") :: lines rest := by
  have line : bytes (text ++ "\n") = bytes text ++ [newline] := bytes_append text "\n"
  rw [line, List.append_assoc]
  exact lines_line (newline_not_mem_bytes flat) rest

theorem trim_line (text : String) : trim (text ++ "\n") = trim text := by
  have blank : isBlank '\n' = true := by decide
  have chars : trimChars (text.toList ++ ['\n']) = trimChars text.toList := by
    unfold trimChars
    rw [List.dropWhile_append]
    split
    · rename_i nothing
      rw [List.isEmpty_iff.mp nothing]
      simp [blank]
    · rw [List.reverse_append, List.reverse_singleton, List.singleton_append,
        List.dropWhile_cons_of_pos blank]
  rw [trim, String.toList_append]
  exact congrArg String.ofList chars

end DecimalMachine.Text
