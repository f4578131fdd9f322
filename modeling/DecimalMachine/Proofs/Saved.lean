import DecimalMachine.Proofs.Json.RoundTrip
import DecimalMachine.Saved

/-!
A saved machine is restored exactly.

A codec is lawful if it decodes what it encodes. The codecs of integers are, because each range
contains the integers of its type, and those of records are because their field names differ. With
`parse?_render` this carries over to the text, in either layout.
-/

namespace DecimalMachine

namespace Json

/-- What is encoded is decoded. -/
class LawfulCodec (α : Type) [Codec α] : Prop where
  decode_encode : ∀ a : α, Codec.decode (Codec.encode a) = some a

theorem read?_write {α : Type} [Codec α] [LawfulCodec α] (layout : Layout) (a : α) :
    read? (write layout a) = some a := by
  rw [read?, write, parse?_render, Option.bind_some, LawfulCodec.decode_encode]

theorem map_integerIn? {α : Type} {low high z : Int} {f : Int → α} {a : α}
    (bounds : low ≤ z ∧ z ≤ high) (value : f z = a) :
    (integerIn? low high (.integer z)).map f = some a := by
  rw [integerIn?, if_pos bounds, Option.map_some, value]

theorem mapM_eq_map {α β : Type} {f : α → Option β} {g : α → β} {as : List α}
    (each : ∀ a ∈ as, f a = some (g a)) : as.mapM f = some (as.map g) := by
  induction as with
  | nil => rfl
  | cons a as ih =>
    rw [List.mapM_cons, each a List.mem_cons_self,
      ih fun b mem => each b (List.mem_cons_of_mem a mem)]
    rfl

theorem field?_of_mem {fields : List (String × Value)} (distinct : (fields.map Prod.fst).Nodup)
    {name : String} {v : Value} (mem : (name, v) ∈ fields) :
    field? (fields.map fun field => (some field.1, field.2)) name = some v := by
  have only : fields.filter (fun field => field.1 == name) = [(name, v)] := by
    induction fields with
    | nil => cases mem
    | cons field rest ih =>
      rw [List.map_cons, List.nodup_cons] at distinct
      rcases List.mem_cons.mp mem with rfl | mem
      · have none_left : rest.filter (fun field => field.1 == name) = [] := by
          rw [List.filter_eq_nil_iff]
          intro other mem_rest same
          exact distinct.1 (List.mem_map.mpr ⟨other, mem_rest, eq_of_beq same⟩)
        rw [List.filter_cons_of_pos (by simp), none_left]
      · have other : (field.1 == name) = false := by
          rw [beq_eq_false_iff_ne]
          intro same
          exact distinct.1 (List.mem_map.mpr ⟨(name, v), mem, same.symm⟩)
        simp only [List.filter_cons, other, Bool.false_eq_true, if_false]
        exact ih distinct.2 mem
  have found : (fields.map fun field => ((some field.1 : Literal), field.2)).filter
      (fun field => field.1 == some name) = [(some name, v)] := by
    rw [List.filter_map]
    exact congrArg (List.map _) only
  rw [field?, found]

theorem fields?_ofFields {names : List String} {fields : List (String × Value)}
    (same : fields.map Prod.fst = names) (distinct : names.Nodup) :
    fields? names (ofFields fields) = some (fields.map Prod.snd) := by
  subst same
  have named : (fields.map fun field => ((some field.1 : Literal), field.2)).all
      (fun field => field.1.isSome) = true := by
    simp
  rw [ofFields, fields?, if_pos named, List.mapM_map]
  exact mapM_eq_map fun field mem => field?_of_mem distinct mem

instance : LawfulCodec Bool where
  decode_encode _ := rfl

instance : LawfulCodec UInt8 where
  decode_encode n := map_integerIn? (by have := n.toNat_lt; omega) (by simp)

instance : LawfulCodec UInt16 where
  decode_encode n := map_integerIn? (by have := n.toNat_lt; omega) (by simp)

instance : LawfulCodec UInt64 where
  decode_encode n := map_integerIn? (by have := n.toNat_lt; omega) (by simp)

instance : LawfulCodec Int32 where
  decode_encode n := map_integerIn? (by have := n.le_toInt; have := n.toInt_lt; omega) (by simp)

instance : LawfulCodec Int64 where
  decode_encode n := map_integerIn? (by have := n.le_toInt; have := n.toInt_lt; omega) (by simp)

end Json

open Json (LawfulCodec Codec Value)

instance : LawfulCodec Word where
  decode_encode w := Word.ofInt?_value w

instance : LawfulCodec Opcode where
  decode_encode op := by
    cases op with
    | unknown code =>
      change (Codec.decode (Codec.encode code)).bind _ = _
      rw [LawfulCodec.decode_encode]
      rfl
    | _ => rfl

instance : LawfulCodec Instruction where
  decode_encode i := by
    change (Json.fields? _ (Json.ofFields _)).bind _ = _
    rw [Json.fields?_ofFields]
    · simp only [List.map_cons, List.map_nil, Option.bind_eq_bind, Option.bind_some,
        LawfulCodec.decode_encode]
      rfl
    · rfl
    · decide

instance : LawfulCodec Registers where
  decode_encode r := by
    change (Json.fields? _ (Json.ofFields _)).bind _ = _
    rw [Json.fields?_ofFields]
    · simp only [List.map_cons, List.map_nil, Option.bind_eq_bind, Option.bind_some,
      LawfulCodec.decode_encode]
      rfl
    · rfl
    · decide

instance : LawfulCodec Memory where
  decode_encode m := by
    have cells : m.cells.toList.mapM (fun w => Codec.decode (Codec.encode w)) =
        some m.cells.toList := by
      rw [Json.mapM_eq_map fun w _ => LawfulCodec.decode_encode w, List.map_id']
    change (Json.fields? _ (Json.ofFields _)).bind _ = _
    rw [Json.fields?_ofFields]
    · simp only [List.map_cons, List.map_nil, Option.bind_some, List.mapM_map, Function.comp_def,
        cells]
      rfl
    · rfl
    · decide

theorem Fault.decodeWith_fields {α : Type} [Codec α] [LawfulCodec α] (name : String)
    (make : α → UInt64 → Fault) (a : α) (location : UInt64) (other : name ≠ "location") :
    Fault.decodeWith name make
      (Json.ofFields [(name, Codec.encode a), ("location", Codec.encode location)]) =
      some (make a location) := by
  rw [Fault.decodeWith, Json.fields?_ofFields]
  · simp only [List.map_cons, List.map_nil, Option.bind_eq_bind, Option.bind_some,
      LawfulCodec.decode_encode]
    rfl
  · rfl
  · simp [other]

theorem Fault.decodeAt_fields (make : UInt64 → Fault) (location : UInt64) :
    Fault.decodeAt make (Json.ofFields [("location", Codec.encode location)]) =
      some (make location) := by
  rw [Fault.decodeAt, Json.fields?_ofFields]
  · simp only [List.map_cons, List.map_nil, Option.bind_eq_bind, Option.bind_some,
      LawfulCodec.decode_encode]
    rfl
  · rfl
  · decide

instance : LawfulCodec Fault where
  decode_encode f := by
    cases f with
    | unknownOpcode code location =>
      exact Fault.decodeWith_fields "code" .unknownOpcode code location (by decide)
    | outOfRange address location =>
      exact Fault.decodeWith_fields "address" .outOfRange address location (by decide)
    | divisionByZero location => exact Fault.decodeAt_fields .divisionByZero location
    | accumulatorOverflow value location =>
      exact Fault.decodeWith_fields "value" .accumulatorOverflow value location (by decide)
    | invalidInput value location =>
      exact Fault.decodeWith_fields "value" .invalidInput value location (by decide)
    | inputExhausted location => exact Fault.decodeAt_fields .inputExhausted location

theorem State.decode_halted (content : Value) :
    Codec.decode (Json.ofVariant "Halted" content) = (do
      match ← Json.fields? ["start_page", "end_page"] content with
      | [first, last] => return State.halted (← Codec.decode first) (← Codec.decode last)
      | _ => none) := by
  rfl

instance : LawfulCodec State where
  decode_encode s := by
    cases s with
    | running => rfl
    | halted first last =>
      refine (State.decode_halted _).trans ?_
      rw [Json.fields?_ofFields]
      · simp only [List.map_cons, List.map_nil, Option.bind_eq_bind, Option.bind_some,
          LawfulCodec.decode_encode]
        rfl
      · rfl
      · decide
    | faulted fault =>
      change (Codec.decode (Codec.encode fault)).bind _ = _
      rw [LawfulCodec.decode_encode]
      rfl

instance : LawfulCodec Machine where
  decode_encode m := by
    change (Json.fields? _ (Json.ofFields _)).bind _ = _
    rw [Json.fields?_ofFields]
    · simp only [List.map_cons, List.map_nil, Option.bind_eq_bind, Option.bind_some,
      LawfulCodec.decode_encode]
      rfl
    · rfl
    · decide

end DecimalMachine
