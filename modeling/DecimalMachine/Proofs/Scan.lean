import DecimalMachine.Program
import DecimalMachine.Proofs.Placement
import DecimalMachine.Proofs.Tokens

/-!
What becomes of the integers of a program's text.

Reading stops behind the word that fills the page. The integers before that point are told apart by
their range, those behind it are not looked at, and whatever is no integer counts for nothing.
-/

namespace DecimalMachine

namespace Program

def integers (text : String) : List Int64 :=
  (text.toList.splitOnP Text.isBlank).filterMap fun piece => Decimal.int64? (String.ofList piece)

def inRange (v : Int64) : Bool := -999999 ≤ v.toInt && v.toInt ≤ 999999

/-- The integers that are looked at as long as there is room for another word. -/
def considered : Nat → List Int64 → List Int64
  | 0, _ => []
  | _ + 1, [] => []
  | room + 1, v :: rest => v :: considered (if inRange v then room else room + 1) rest

/-- Reading for `n` words stops behind the integer that is the `n`-th of them, or behind the last
integer if there are fewer. -/
inductive StopsAfter (n : Nat) : List Int64 → Nat → Prop where
  | full {before : List Int64} {v : Int64} (after : List Int64)
      (count : before.countP inRange + 1 = n) (last : inRange v) :
      StopsAfter n (before ++ v :: after) (before.length + 1)
  | all {vs : List Int64} (few : vs.countP inRange < n) : StopsAfter n vs vs.length

theorem integers_eq (text : String) :
    integers text = (Text.tokens text).filterMap Decimal.int64? :=
  (Text.filterMap_tokens rfl text).symm

theorem integers_lines (text : String) :
    integers text = (Text.textLines text).flatMap integers := by
  rw [integers_eq, Text.tokens_eq_flatMap_textLines, List.filterMap_flatMap]
  congr 1
  funext line
  exact (integers_eq line).symm

theorem considered_zero (vs : List Int64) : considered 0 vs = [] := by
  cases vs <;> rfl

theorem considered_cons {n : Nat} (room : 0 < n) (v : Int64) (vs : List Int64) :
    considered n (v :: vs) = v :: considered (if inRange v then n - 1 else n) vs := by
  cases n with
  | zero => contradiction
  | succ n => rfl

theorem filter_considered (n : Nat) (vs : List Int64) :
    (considered n vs).filter inRange = (vs.filter inRange).take n := by
  induction vs generalizing n with
  | nil => cases n <;> simp [considered]
  | cons v vs ih =>
    cases n with
    | zero => simp [considered]
    | succ n => by_cases inside : inRange v <;> simp [considered, inside, ih]

theorem StopsAfter.considered {n k : Nat} {vs : List Int64} (stops : StopsAfter n vs k) :
    considered n vs = vs.take k := by
  -- Each word takes one place of the room, an integer that is no word takes none.
  cases stops with
  | @full before v after count last =>
    rw [List.append_cons, List.take_left' (by simp), ← List.append_cons]
    induction before generalizing n with
    | nil =>
      rw [List.countP_nil] at count
      subst count
      rw [List.nil_append, considered_cons (by omega), if_pos last, considered_zero]
      rfl
    | cons u before ih =>
      rw [List.cons_append, considered_cons (by omega)]
      by_cases inside : inRange u
      · rw [List.countP_cons_of_pos inside] at count
        rw [if_pos inside, ih (by omega)]
        rfl
      · rw [List.countP_cons_of_neg inside] at count
        rw [if_neg inside, ih count]
        rfl
  | all few =>
    rw [List.take_length]
    induction vs generalizing n with
    | nil => cases n <;> rfl
    | cons v vs ih =>
      rw [considered_cons (by omega)]
      by_cases inside : inRange v
      · rw [List.countP_cons_of_pos inside] at few
        rw [if_pos inside, ih (by omega)]
      · rw [List.countP_cons_of_neg inside] at few
        rw [if_neg inside, ih few]

theorem StopsAfter.cons {n m k : Nat} {vs : List Int64} (v : Int64) (stops : StopsAfter m vs k)
    (room : n = m + if inRange v then 1 else 0) : StopsAfter n (v :: vs) (k + 1) := by
  cases stops with
  | @full before u after count last =>
    rw [← List.cons_append]
    refine .full after ?_ last
    rw [List.countP_cons, room]
    omega
  | all few =>
    refine .all ?_
    rw [List.countP_cons, room]
    omega

theorem exists_stopsAfter {n : Nat} (room : 0 < n) (vs : List Int64) :
    ∃ k, StopsAfter n vs k := by
  induction vs generalizing n with
  | nil => exact ⟨_, .all room⟩
  | cons v vs ih =>
    by_cases inside : inRange v
    · by_cases last : n = 1
      · exact ⟨_, @StopsAfter.full n [] v vs (by rw [last]; rfl) inside⟩
      · obtain ⟨k, stops⟩ := ih (n := n - 1) (by omega)
        exact ⟨k + 1, stops.cons v (by rw [if_pos inside]; omega)⟩
    · obtain ⟨k, stops⟩ := ih room
      exact ⟨k + 1, stops.cons v (by rw [if_neg inside]; rfl)⟩

/-! ### The scan -/

theorem ofInt64_of_inRange {v : Int64} (inside : inRange v) :
    ∃ w, Word.ofInt64 v = .ok w ∧ w.value = v.toInt := by
  have bounds : -999999 ≤ v.toInt ∧ v.toInt ≤ 999999 := by simpa [inRange] using inside
  refine ⟨⟨v.toInt, bounds.1, bounds.2⟩, ?_, rfl⟩
  have made : Word.ofInt? v.toInt = some ⟨v.toInt, bounds.1, bounds.2⟩ := dif_pos bounds
  simp only [Word.ofInt64, made]

theorem ofInt64_of_outside {v : Int64} (outside : inRange v = false) :
    Word.ofInt64 v = .error (.outOfRange v) := by
  have bounds : ¬ (-999999 ≤ v.toInt ∧ v.toInt ≤ 999999) := by simpa [inRange] using outside
  have none : Word.ofInt? v.toInt = none := dif_neg bounds
  simp only [Word.ofInt64, none]

theorem scan_program (room : Nat) (tokens : List String) :
    (scan room tokens).program.words.map Word.value =
      ((considered room (tokens.filterMap Decimal.int64?)).filter inRange).map Int64.toInt ∧
    (scan room tokens).program.rejected =
      (considered room (tokens.filterMap Decimal.int64?)).filter fun v => !inRange v := by
  induction tokens generalizing room with
  | nil => cases room <;> exact ⟨rfl, rfl⟩
  | cons token rest ih =>
    cases room with
    | zero =>
      rw [considered_zero]
      exact ⟨rfl, rfl⟩
    | succ room =>
      cases value : Decimal.int64? token with
      | none =>
        simp only [scan, value, Scan.skip, List.filterMap_cons_none value]
        exact ih (room + 1)
      | some v =>
        simp only [scan, value, List.filterMap_cons_some value, considered]
        by_cases inside : inRange v
        · obtain ⟨w, made, same⟩ := ofInt64_of_inRange inside
          simp [made, Scan.accept, inside, same, ih room]
        · have outside := Bool.eq_false_iff.mpr inside
          simp [ofInt64_of_outside outside, Scan.reject, outside, ih (room + 1)]

theorem ofText_words (text : String) : (ofText text).words.map Word.value =
    (((integers text).filter inRange).take capacity).map Int64.toInt := by
  rw [ofText, scanText, (scan_program capacity _).1, filter_considered, integers_eq]

theorem ofText_length (text : String) : (ofText text).words.length ≤ capacity := by
  have length := congrArg List.length (ofText_words text)
  rw [List.length_map, List.length_map] at length
  rw [length]
  exact List.length_take_le _ _

/-! ### The loaded program -/

theorem fresh_holds {program : List Word} (fits : program.length ≤ capacity) :
    ∃ memory, Machine.fresh.loadProgram program = .placed { Machine.fresh with memory } ∧
      memory.cells.size = Memory.capacity ∧
      ∀ address < Memory.capacity, memory.cells[address]? = some (program.getD address .zero) := by
  have size : Machine.fresh.memory.cells.size = Memory.capacity := Array.size_replicate
  obtain ⟨memory, loaded, holds⟩ := Machine.loadProgram_of_fits size (Nat.le_trans fits (by decide))
  refine ⟨memory, loaded, holds.size.trans size, ?_⟩
  intro address bound
  rw [List.getD_eq_getElem?_getD]
  by_cases placed : address < program.length
  · have inside := holds.inside address placed
    rw [UInt64.toNat_zero, Nat.zero_add, List.getElem?_eq_getElem placed] at inside
    rw [inside, List.getElem?_eq_getElem placed]
    rfl
  · have behind : (0 : UInt64).toNat + program.length ≤ address := by
      rw [UInt64.toNat_zero]
      omega
    rw [holds.outside address (.inr behind), List.getElem?_eq_none (by omega)]
    exact Array.getElem?_replicate.trans (if_pos bound)

/-- A program's text is read for the integers among its tokens, up to the one that fills the page:
those in range are its words and the others are rejected. The words always fit a fresh memory. -/
theorem ofText_filters (text : String) :
    (∃ k, StopsAfter 100 (integers text) k) ∧
    (∀ k, StopsAfter 100 (integers text) k →
      (ofText text).words.map Word.value =
        (((integers text).take k).filter inRange).map Int64.toInt ∧
      (ofText text).rejected = ((integers text).take k).filter fun v => !inRange v) ∧
    (ofText text).words.length ≤ 100 ∧
    ∃ memory, Machine.fresh.loadProgram (ofText text).words =
        .placed { Machine.fresh with memory } ∧
      memory.cells.size = 10000 ∧
      ∀ i < 10000, memory.cells[i]? = some ((ofText text).words.getD i .zero) := by
  refine ⟨exists_stopsAfter (by decide) _, ?_, ofText_length text, fresh_holds (ofText_length text)⟩
  intro k stops
  have scanned := scan_program capacity (Text.tokens text)
  rw [← integers_eq, capacity, Memory.pageSize, stops.considered] at scanned
  exact scanned

end Program

end DecimalMachine
