import DecimalMachine.Proofs.FailedStep
import DecimalMachine.Proofs.Saved

/-!
Texts that are read back, and texts that are refused.

A saved value is restored from either layout, and writing what was read settles after the first
time. `wordPlaces` finds the words of a JSON value in every form that is accepted for it: in
any order of members, among unknown ones, or in an array. None of them can be out of range.
-/

namespace DecimalMachine

namespace Json

def resave (α : Type) [Codec α] (layout : Layout) (text : String) : Option String :=
  (read? text : Option α).map (write layout)

/-- Values of the type are restored as they were. A text that is accepted stands for the same value
once it is saved again, and does not change a second time. -/
structure RoundTrips (α : Type) [Codec α] : Prop where
  restored : ∀ (layout : Layout) (a : α), read? (write layout a) = some a
  settled : ∀ (layout : Layout) (text written : String), resave α layout text = some written →
    (read? written : Option α) = read? text ∧ resave α layout written = some written

theorem roundTrips (α : Type) [Codec α] [LawfulCodec α] : RoundTrips α where
  restored := read?_write
  settled := by
    intro layout text written first
    obtain ⟨a, accepted, rfl⟩ := Option.map_eq_some_iff.mp first
    constructor
    · rw [read?_write, accepted]
    · rw [resave, read?_write, Option.map_some]

def placed (name : String) (position : Nat) : Value → List Value
  | .object fields => (fields.filter fun field => field.1 == some name).map Prod.snd
  | .array items => items[position]?.toList
  | _ => []

def items : Value → List Value
  | .array items => items
  | _ => []

theorem getElem?_of_mapM {α β : Type} {f : α → Option β} {as : List α} {bs : List β}
    (mapped : as.mapM f = some bs) {i : Nat} {a : α} (found : as[i]? = some a) :
    ∃ b, f a = some b ∧ bs[i]? = some b := by
  induction as generalizing bs i with
  | nil => cases found
  | cons first rest ih =>
    simp only [List.mapM_cons, Option.bind_eq_bind, Option.bind_eq_some_iff] at mapped
    obtain ⟨b, head, others, mapped, same⟩ := mapped
    cases same
    cases i with
    | zero =>
      cases found
      exact ⟨b, head, rfl⟩
    | succ i => exact ih mapped found

theorem eq_of_placed {names : List String} {v p : Value} {vs : List Value} {name : String}
    {position : Nat} (accepted : fields? names v = some vs) (known : names[position]? = some name)
    (mem : p ∈ placed name position v) : vs[position]? = some p := by
  unfold fields? at accepted
  split at accepted
  · split at accepted
    · cases accepted
      exact Option.mem_toList.mp mem
    · cases accepted
  · split at accepted
    · obtain ⟨w, only, found⟩ := getElem?_of_mapM accepted known
      unfold field? at only
      split at only
      · rename_i single
        cases only
        rw [placed, single] at mem
        rw [found, List.mem_singleton.mp mem]
      · cases only
    · cases accepted
  · cases accepted

def IsWord : Value → Prop
  | .integer z => -999999 ≤ z ∧ z ≤ 999999
  | _ => False

/-- A text is refused if a value in one of these places is no word. -/
def RefusesNonWords (α : Type) [Codec α] (places : Value → List Value) : Prop :=
  ∀ (text : String) (v p : Value), Value.parse? text = some v → p ∈ places v → ¬ IsWord p →
    (read? text : Option α) = none

theorem refusesNonWords {α : Type} [Codec α] {places : Value → List Value}
    (words : ∀ (v : Value) (a : α), Codec.decode v = some a → ∀ p ∈ places v, IsWord p) :
    RefusesNonWords α places := by
  intro text v p parsed mem bad
  rw [read?, parsed, Option.bind_some, Option.eq_none_iff_forall_ne_some]
  intro a decoded
  exact bad (words v a decoded p mem)

end Json

open Json (Codec Value IsWord placed)

theorem Word.isWord_of_decode {v : Value} {w : Word} (decoded : Codec.decode v = some w) :
    IsWord v := by
  cases v with
  | integer z =>
    rw [← Word.value_of_ofInt? decoded]
    exact ⟨w.lower, w.upper⟩
  | _ => cases decoded

def Registers.wordPlaces (v : Value) : List Value :=
  placed "accumulator" 0 v ++ placed "instruction" 3 v

theorem Registers.isWord_of_decode {v : Value} {r : Registers} (decoded : Codec.decode v = some r) :
    ∀ p ∈ wordPlaces v, IsWord p := by
  obtain ⟨vs, accepted, decoded⟩ := Option.bind_eq_some_iff.mp decoded
  split at decoded
  · rename_i accumulator index counter instruction
    simp only [Option.bind_eq_bind, Option.bind_eq_some_iff] at decoded
    obtain ⟨_, first, _, _, _, _, _, last, _⟩ := decoded
    intro p mem
    rcases List.mem_append.mp mem with mem | mem
    · cases Json.eq_of_placed accepted rfl mem
      exact Word.isWord_of_decode first
    · cases Json.eq_of_placed accepted rfl mem
      exact Word.isWord_of_decode last
  · cases decoded

def Memory.wordPlaces (v : Value) : List Value := (placed "cells" 0 v).flatMap Json.items

theorem Memory.isWord_of_decode {v : Value} {m : Memory} (decoded : Codec.decode v = some m) :
    ∀ p ∈ wordPlaces v, IsWord p := by
  obtain ⟨vs, accepted, decoded⟩ := Option.bind_eq_some_iff.mp decoded
  split at decoded
  · rename_i cells
    simp only [Option.bind_eq_bind, Option.bind_eq_some_iff] at decoded
    obtain ⟨words, mapped, _⟩ := decoded
    intro p mem
    obtain ⟨whole, mem, item⟩ := List.mem_flatMap.mp mem
    cases Json.eq_of_placed accepted rfl mem
    obtain ⟨i, found⟩ := List.mem_iff_getElem?.mp item
    obtain ⟨w, cell, -⟩ := Json.getElem?_of_mapM mapped found
    exact Word.isWord_of_decode cell
  · cases decoded

def Machine.wordPlaces (v : Value) : List Value :=
  (placed "regs" 0 v).flatMap Registers.wordPlaces ++
    (placed "mem" 1 v).flatMap Memory.wordPlaces

theorem Machine.isWord_of_decode {v : Value} {m : Machine} (decoded : Codec.decode v = some m) :
    ∀ p ∈ wordPlaces v, IsWord p := by
  obtain ⟨vs, accepted, decoded⟩ := Option.bind_eq_some_iff.mp decoded
  split at decoded
  · rename_i registers memory state cycles trace
    simp only [Option.bind_eq_bind, Option.bind_eq_some_iff] at decoded
    obtain ⟨_, first, _, second, _⟩ := decoded
    intro p mem
    rcases List.mem_append.mp mem with mem | mem
    · obtain ⟨whole, mem, inner⟩ := List.mem_flatMap.mp mem
      cases Json.eq_of_placed accepted rfl mem
      exact Registers.isWord_of_decode first p inner
    · obtain ⟨whole, mem, inner⟩ := List.mem_flatMap.mp mem
      cases Json.eq_of_placed accepted rfl mem
      exact Memory.isWord_of_decode second p inner
  · cases decoded

open Json (RoundTrips RefusesNonWords roundTrips refusesNonWords)

/-- Whatever is saved is restored, a restored machine goes on as the saved one, and a word out of
range is never restored. -/
theorem saved_restored :
    (RoundTrips Word ∧ RoundTrips Opcode ∧ RoundTrips Instruction ∧ RoundTrips Registers ∧
      RoundTrips Memory ∧ RoundTrips State ∧ RoundTrips Fault ∧ RoundTrips Machine) ∧
    (∀ m : Machine, ∃ restored, Json.read? (Json.write .indented m) = some restored ∧
      ∀ {ι ω : Type} [Source ι] [Sink ω] (console : Console ι ω) (calls : List Call),
        calls.foldlM Call.apply ⟨restored, console⟩ = calls.foldlM Call.apply ⟨m, console⟩) ∧
    RefusesNonWords Word (fun v => [v]) ∧ RefusesNonWords Registers Registers.wordPlaces ∧
    RefusesNonWords Memory Memory.wordPlaces ∧ RefusesNonWords Machine Machine.wordPlaces := by
  refine ⟨?_, ?_, ?_⟩
  · exact ⟨roundTrips _, roundTrips _, roundTrips _, roundTrips _, roundTrips _, roundTrips _,
      roundTrips _, roundTrips _⟩
  · intro m
    exact ⟨m, Json.read?_write _ m, fun _ _ => rfl⟩
  · refine ⟨refusesNonWords ?_, refusesNonWords fun _ _ => Registers.isWord_of_decode,
      refusesNonWords fun _ _ => Memory.isWord_of_decode,
      refusesNonWords fun _ _ => Machine.isWord_of_decode⟩
    intro v w decoded p mem
    rw [List.mem_singleton.mp mem]
    exact Word.isWord_of_decode decoded

theorem saved_restored_overfull :
    ∃ text v, Value.parse? text = some v ∧ Value.integer 1000000 ∈ Registers.wordPlaces v ∧
      (Json.read? text : Option Registers) = none := by
  let v := Json.ofFields [("colour", .null), ("instruction", .integer 0),
    ("accumulator", .integer 1000000), ("counter", .integer 0), ("index", .integer 0)]
  have parsed : Value.parse? (v.render .compact) = some v := Json.parse?_render .compact v
  have mem : Value.integer 1000000 ∈ Registers.wordPlaces v := .head _
  have bad : ¬ IsWord (.integer 1000000) := by unfold IsWord; omega
  exact ⟨_, v, parsed, mem, saved_restored.2.2.2.1 _ v _ parsed mem bad⟩

end DecimalMachine
