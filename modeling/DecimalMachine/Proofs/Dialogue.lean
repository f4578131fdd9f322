import DecimalMachine.Console.Input
import DecimalMachine.Proofs.Execution
import DecimalMachine.Proofs.Reliable

/-!
The instructions at a console that never fails: a script of values, and a transcript without a
limit.

There, every dialogue comes to its end. `Says` tells what it adds to the transcript and takes from
the script.
-/

namespace DecimalMachine

structure Heard (c : Console Script Transcript) (unread : List Int64) (output : String) : Prop where
  unread : c.input.values = unread
  output : c.output.text = output
  unlimited : c.output.limit = none

/-- From one script and text, the dialogue gives `a` and leaves another script and text. -/
def Says {ε α : Type} (act : Dialogue Script Transcript ε α) (unread : List Int64) (output : String)
    (a : α) (unread' : List Int64) (output' : String) : Prop :=
  ∀ c, Heard c unread output → ∃ c', act c = .ok a c' ∧ Heard c' unread' output'

theorem Says.of_comes {ε α : Type} {act : Dialogue Script Transcript ε α}
    {unread unread' : List Int64} {output said : String} {a : α}
    (comes : Comes Transcript.Holds act ⟨unread⟩ (.ok a) ⟨unread'⟩ said) :
    Says act unread output a unread' (output ++ said) := by
  rintro ⟨⟨_⟩, transcript, journal⟩ ⟨rfl, held, unlimited⟩
  obtain ⟨transcript', journal', done, unlimited', held'⟩ :=
    comes transcript journal output ⟨unlimited, held⟩
  exact ⟨_, done, rfl, held', unlimited'⟩

namespace Machine

variable {m : Machine} {unread : List Int64} {output : String}

theorem says_perform {settled : Except Fault Change} {unread' : List Int64} {said : String}
    (reply : m.reply (⟨unread⟩ : Script) = ⟨.ok settled, ⟨unread'⟩, said⟩) :
    Says m.perform unread output settled unread' (output ++ m.heading ++ said) := by
  have comes := perform_comes Transcript.reliable m (⟨unread⟩ : Script)
  rw [reply] at comes
  rw [String.append_assoc]
  exact Says.of_comes comes

theorem says_perform_change {computed : Except Fault Change}
    (planned : m.plan m.current = computed.map .change) :
    Says m.perform unread output computed unread (output ++ m.heading) := by
  have silent : m.reply (⟨unread⟩ : Script) = ⟨.ok computed, ⟨unread⟩, ""⟩ := by
    rw [reply, planned]
    cases computed <;> rfl
  simpa using says_perform silent

theorem says_perform_print {w : Word} (planned : m.plan m.current = .ok (.print w)) :
    Says m.perform unread output (.ok .nothing) unread
      (output ++ m.heading ++ (Decimal.Numeral.plain.write w.value ++ "\n")) :=
  says_perform (by rw [reply, planned])

theorem says_perform_ask {address : UInt64} (planned : m.plan m.current = .ok (.ask address)) :
    Says m.perform unread output (m.receive address unread.head?) unread.tail
      (output ++ m.heading ++ "? ") := by
  apply says_perform
  rw [reply, planned]
  cases unread <;> rfl

/-! ### One instruction -/

theorem view_print (text : String) :
    (m.view unread output).print text = m.view unread (output ++ text) := rfl

theorem view_announced (whole : m.Whole) :
    (m.view unread output).announced m.trace m.registers.instruction.value =
      m.view unread (output ++ m.heading) := by
  have code : m.registers.instruction.value.natAbs / 10000 = m.current.opcode.code.toNat :=
    m.current_code
  have operand : m.registers.instruction.value.natAbs % 10000 = m.current.operand.toNat :=
    m.current_operand.symm
  have same : (m.view unread output).announcement m.registers.instruction.value =
      m.announcement ++ "\n" := by
    unfold Reference.State.announcement announcement
    rw [code, operand]
    simp only [view, counter_val whole]
    rfl
  unfold Reference.State.announced heading
  cases m.trace with
  | true => rw [if_pos rfl, if_pos rfl, same, view_print]
  | false => simp

theorem view_receive (whole : m.Whole) {address : UInt64} (inside : address.toNat < 10000) :
    (m.settle (m.receive address unread.head?)).view unread.tail output =
      (m.view unread output).receive ⟨address.toNat, inside⟩ := by
  cases unread with
  | nil => exact view_fault whole rfl
  | cons value rest =>
    change (m.settle (m.receive address (some value))).view rest output =
      if Reference.isWord value.toInt then
        (m.view rest output).store ⟨address.toNat, inside⟩ value.toInt
      else (m.view rest output).fault (.invalidInput value.toInt)
    by_cases word : Reference.isWord value.toInt
    · rw [if_pos word, receive, Word.ofInt64, ofInt?_of_isWord word]
      exact view_storing whole inside _
    · rw [if_neg word, receive, Word.ofInt64, ofInt?_of_not_isWord word]
      exact view_fault whole rfl

theorem perform_follows (whole : m.Whole) (unread : List Int64) (output : String) :
    ∃ settled unread' output', Says m.perform unread output settled unread' output' ∧
      (m.settle settled).view unread' output' =
        ((m.view unread output).announced m.trace m.registers.instruction.value).execute
          m.registers.instruction.value := by
  rw [view_announced whole]
  by_cases reads : m.current.opcode = .read
  · have code : _ = 10 := m.code_of reads
    refine ⟨_, _, _, says_perform_ask (by rw [plan, reads]), ?_⟩
    rw [view_receive whole m.operand_lt, operand_address, Reference.State.execute, code]
    rfl
  · by_cases writes : m.current.opcode = .write
    · have code : _ = 11 := m.code_of writes
      obtain ⟨w, given, value⟩ := operandWord_direct whole (by rw [writes]; rfl)
      refine ⟨_, _, _, says_perform_print (by rw [plan, writes]; simp only [given]; rfl), ?_⟩
      rw [view_nothing whole, value, Reference.State.execute, code]
      rfl
    · obtain ⟨computed, follows⟩ := plan_follows whole reads writes
      exact ⟨computed, _, _, says_perform_change follows.planned, follows.leads _ _⟩

end Machine

end DecimalMachine
