import Mathlib.Data.List.Forall2
import DecimalMachine.Json.Printer
import DecimalMachine.Proofs.Json.Lexing

/-!
Written JSON is read back, in either layout.

`Value.tokens` is what the two layouts have in common. The text of a value is cut into these tokens,
and the tokens are read as the value. Both halves say it in front of any further text.
-/

namespace DecimalMachine.Json

/-! ### The tokens of a value -/

def Token.enclosed (opening closing : Token) : List (List Token) → List Token
  | [] => [opening, closing]
  | entry :: rest => opening :: (entry ++ rest.flatMap (Token.comma :: ·) ++ [closing])

namespace Value

mutual

def tokens : Value → List Token
  | .null => [.null]
  | .bool b => [.bool b]
  | .integer z => [.integer z]
  | .fraction => [.fraction]
  | .string s => [.string s]
  | .array items => Token.enclosed .openArray .closeArray (itemTokens items)
  | .object fields => Token.enclosed .openObject .closeObject (memberTokens fields)

def itemTokens : List Value → List (List Token)
  | [] => []
  | v :: rest => tokens v :: itemTokens rest

def memberTokens : List (Literal × Value) → List (List Token)
  | [] => []
  | (key, v) :: rest => (.string key :: .colon :: tokens v) :: memberTokens rest

end

end Value

/-! ### Cutting the pieces -/

def charsOf (ps : List Piece) : List Char := ps.flatMap Piece.chars

/-- These pieces are cut into these tokens, whatever follows. -/
def CutsTo (ps : List Piece) (ts : List Token) : Prop :=
  ∀ done rest, cut done (charsOf ps ++ rest) = cut (ts.reverse ++ done) rest

/-- These pieces are cut into these tokens, if what follows ends a bare token. -/
def CutsToBefore (ps : List Piece) (ts : List Token) : Prop :=
  ∀ done rest, Ends rest → cut done (charsOf ps ++ rest) = cut (ts.reverse ++ done) rest

def Delimits (ps : List Piece) : Prop := ∀ rest, Ends (charsOf ps ++ rest)

theorem charsOf_append (ps qs : List Piece) : charsOf (ps ++ qs) = charsOf ps ++ charsOf qs :=
  List.flatMap_append

theorem CutsTo.before {ps : List Piece} {ts : List Token} (cuts : CutsTo ps ts) :
    CutsToBefore ps ts :=
  fun done rest _ => cuts done rest

theorem CutsTo.nil : CutsTo [] [] := fun _ _ => rfl

theorem CutsTo.append {ps qs : List Piece} {ts us : List Token} (first : CutsTo ps ts)
    (second : CutsTo qs us) : CutsTo (ps ++ qs) (ts ++ us) := by
  intro done rest
  rw [charsOf_append, List.append_assoc, first, second, List.reverse_append, List.append_assoc]

theorem CutsTo.append_before {ps qs : List Piece} {ts us : List Token} (first : CutsTo ps ts)
    (second : CutsToBefore qs us) : CutsToBefore (ps ++ qs) (ts ++ us) := by
  intro done rest ends
  rw [charsOf_append, List.append_assoc, first, second _ _ ends, List.reverse_append,
    List.append_assoc]

theorem CutsToBefore.append {ps qs : List Piece} {ts us : List Token} (first : CutsToBefore ps ts)
    (second : CutsTo qs us) (delimits : Delimits qs) : CutsTo (ps ++ qs) (ts ++ us) := by
  intro done rest
  rw [charsOf_append, List.append_assoc, first _ _ (delimits rest), second, List.reverse_append,
    List.append_assoc]

theorem cutsTo_token {t : Token} (whole : t.isBare = false) : CutsTo [.token t] [t] := by
  intro done rest
  have chars : charsOf [.token t] = t.chars := List.append_nil _
  rw [chars]
  exact cut_token done t (by simp [whole])

theorem cutsToBefore_token (t : Token) : CutsToBefore [.token t] [t] := by
  intro done rest ends
  have chars : charsOf [.token t] = t.chars := List.append_nil _
  rw [chars]
  exact cut_token done t fun _ => ends

theorem cutsTo_blanks {blanks : List Char} (spaces : ∀ c ∈ blanks, isSpace c = true) :
    CutsTo [.blanks blanks] [] := by
  intro done rest
  have chars : charsOf [.blanks blanks] = blanks := List.append_nil _
  rw [chars]
  exact cut_blanks done spaces rest

theorem cutsTo_newline (layout : Layout) (depth : Nat) : CutsTo (layout.newline depth) [] := by
  cases layout with
  | compact => exact .nil
  | indented =>
    apply cutsTo_blanks
    intro c mem
    rcases List.mem_cons.mp mem with rfl | space
    · rfl
    · rw [List.eq_of_mem_replicate space]
      rfl

theorem cutsTo_afterColon (layout : Layout) : CutsTo layout.afterColon [] := by
  cases layout with
  | compact => exact .nil
  | indented => exact cutsTo_blanks (List.all_eq_true.mp rfl)

theorem delimits_closing (layout : Layout) (depth : Nat) {closing : Token}
    (ends : Delimits [.token closing]) : Delimits (layout.newline depth ++ [.token closing]) := by
  cases layout with
  | compact => exact ends
  | indented => exact fun rest => rfl

theorem cutsTo_further (layout : Layout) (depth : Nat) {closing : Token}
    (ends : Delimits [.token closing]) (whole : closing.isBare = false)
    {entries : List (List Piece)} {ts : List (List Token)}
    (cuts : List.Forall₂ CutsToBefore entries ts) :
    CutsTo (entries.flatMap (layout.further (depth + 1)) ++
        (layout.newline depth ++ [.token closing]))
      (ts.flatMap (Token.comma :: ·) ++ [closing]) ∧
    Delimits (entries.flatMap (layout.further (depth + 1)) ++
        (layout.newline depth ++ [.token closing])) := by
  induction cuts with
  | nil =>
    exact ⟨(cutsTo_newline layout depth).append (cutsTo_token whole),
      delimits_closing layout depth ends⟩
  | @cons entry t entries ts cutsEntry cutsRest ih =>
    have comma : CutsTo [.token .comma] [.comma] := cutsTo_token rfl
    have joined := (comma.append (cutsTo_newline layout (depth + 1))).append
      (cutsEntry.append ih.1 ih.2)
    refine ⟨?_, fun rest => rfl⟩
    simpa [Layout.further, List.flatMap_cons] using joined

theorem cutsTo_enclosed (layout : Layout) (depth : Nat) {opening closing : Token}
    (wholeOpening : opening.isBare = false) (whole : closing.isBare = false)
    (ends : Delimits [.token closing]) {entries : List (List Piece)} {ts : List (List Token)}
    (cuts : List.Forall₂ CutsToBefore entries ts) :
    CutsTo (layout.enclosed depth opening closing entries) (Token.enclosed opening closing ts) := by
  cases cuts with
  | nil => exact (cutsTo_token wholeOpening).append (cutsTo_token whole)
  | @cons entry t entries ts cutsEntry cutsRest =>
    have rest := cutsTo_further layout depth ends whole cutsRest
    have joined := ((cutsTo_token wholeOpening).append (cutsTo_newline layout (depth + 1))).append
      (cutsEntry.append rest.1 rest.2)
    simpa [Layout.enclosed, Token.enclosed] using joined

theorem delimits_closeArray : Delimits [.token .closeArray] := fun _ => rfl

theorem delimits_closeObject : Delimits [.token .closeObject] := fun _ => rfl

mutual

theorem cutsTo_pieces (layout : Layout) (depth : Nat) :
    ∀ v : Value, CutsToBefore (v.pieces layout depth) v.tokens
  | .null => cutsToBefore_token _
  | .bool _ => cutsToBefore_token _
  | .integer _ => cutsToBefore_token _
  | .fraction => cutsToBefore_token _
  | .string _ => cutsToBefore_token _
  | .array items => by
    rw [Value.pieces, Value.tokens]
    exact (cutsTo_enclosed layout depth rfl rfl delimits_closeArray
      (cutsTo_itemPieces layout (depth + 1) items)).before
  | .object fields => by
    rw [Value.pieces, Value.tokens]
    exact (cutsTo_enclosed layout depth rfl rfl delimits_closeObject
      (cutsTo_memberPieces layout (depth + 1) fields)).before

theorem cutsTo_itemPieces (layout : Layout) (depth : Nat) :
    ∀ items : List Value,
      List.Forall₂ CutsToBefore (Value.itemPieces layout depth items) (Value.itemTokens items)
  | [] => .nil
  | v :: rest => .cons (cutsTo_pieces layout depth v) (cutsTo_itemPieces layout depth rest)

theorem cutsTo_memberPieces (layout : Layout) (depth : Nat) :
    ∀ fields : List (Literal × Value),
      List.Forall₂ CutsToBefore (Value.memberPieces layout depth fields)
        (Value.memberTokens fields)
  | [] => .nil
  | (key, v) :: rest => by
    have quoted : CutsTo [.token (.string key)] [.string key] := cutsTo_token rfl
    have name : CutsTo [.token (.string key), .token .colon] [.string key, .colon] :=
      quoted.append (cutsTo_token rfl)
    have member := (name.append (cutsTo_afterColon layout)).append_before
      (cutsTo_pieces layout depth v)
    exact .cons (by simpa using member) (cutsTo_memberPieces layout depth rest)

end

theorem tokens?_render (layout : Layout) (v : Value) :
    tokens? (v.render layout).toList = some v.tokens := by
  have whole := cutsTo_pieces layout 0 v [] [] trivial
  rw [List.append_nil, List.append_nil] at whole
  rw [Value.render, String.toList_ofList]
  refine whole.trans ?_
  simp [cut, Cutter.feedAll, Cutter.finish]

/-! ### Reading the tokens -/

theorem Reader.feedAll_cons (reader : Reader) (t : Token) (ts : List Token) :
    reader.feedAll (t :: ts) = (reader.feed t).bind fun next => next.feedAll ts := rfl

def ReadAs (ts : List Token) (v : Value) : Prop :=
  ∀ frames rest,
    (Reader.value frames).feedAll (ts ++ rest) = (Reader.complete v frames).feedAll rest

theorem tokens_cons (v : Value) : ∃ t ts, v.tokens = t :: ts ∧ t ≠ .closeArray := by
  cases v with
  | null | bool | integer | fraction | string => exact ⟨_, [], rfl, nofun⟩
  | array items =>
    rw [Value.tokens]
    cases Value.itemTokens items <;> exact ⟨.openArray, _, rfl, nofun⟩
  | object fields =>
    rw [Value.tokens]
    cases Value.memberTokens fields <;> exact ⟨.openObject, _, rfl, nofun⟩

theorem feedAll_firstItem (outer : List Frame) (v : Value) (rest : List Token) :
    (Reader.firstItem outer).feedAll (v.tokens ++ rest) =
      (Reader.value (.item [] :: outer)).feedAll (v.tokens ++ rest) := by
  obtain ⟨t, ts, lead, opens⟩ := tokens_cons v
  rw [lead, List.cons_append, Reader.feedAll_cons, Reader.feedAll_cons]
  cases t with
  | closeArray => contradiction
  | _ => rfl

mutual

theorem reads_tokens : ∀ v : Value, ReadAs v.tokens v
  | .null => fun _ _ => rfl
  | .bool _ => fun _ _ => rfl
  | .integer _ => fun _ _ => rfl
  | .fraction => fun _ _ => rfl
  | .string _ => fun _ _ => rfl
  | .array [] => fun _ _ => rfl
  | .array (v :: items) => by
    intro frames rest
    have opened : (Value.array (v :: items)).tokens ++ rest = .openArray :: (v.tokens ++
        ((Value.itemTokens items).flatMap (Token.comma :: ·) ++ .closeArray :: rest)) := by
      simp [Value.tokens, Value.itemTokens, Token.enclosed]
    rw [opened, Reader.feedAll_cons]
    change (Reader.firstItem frames).feedAll _ = _
    rw [feedAll_firstItem, reads_tokens v]
    exact reads_items items [v] frames rest
  | .object [] => fun _ _ => rfl
  | .object ((key, v) :: fields) => by
    intro frames rest
    have opened : (Value.object ((key, v) :: fields)).tokens ++ rest =
        .openObject :: .string key :: .colon :: (v.tokens ++
          ((Value.memberTokens fields).flatMap (Token.comma :: ·) ++ .closeObject :: rest)) := by
      simp [Value.tokens, Value.memberTokens, Token.enclosed]
    rw [opened]
    change (Reader.value (.member [] key :: frames)).feedAll _ = _
    rw [reads_tokens v]
    exact reads_members fields [(key, v)] frames rest

theorem reads_items : ∀ (items before : List Value) (outer : List Frame) (rest : List Token),
    (Reader.afterItem before outer).feedAll
        ((Value.itemTokens items).flatMap (Token.comma :: ·) ++ .closeArray :: rest) =
      (Reader.complete (.array (before.reverse ++ items)) outer).feedAll rest
  | [], before, outer, rest => by
    rw [List.append_nil]
    rfl
  | v :: items, before, outer, rest => by
    have next : (Value.itemTokens (v :: items)).flatMap (Token.comma :: ·) ++ .closeArray :: rest =
        .comma :: (v.tokens ++
          ((Value.itemTokens items).flatMap (Token.comma :: ·) ++ .closeArray :: rest)) := by
      simp [Value.itemTokens]
    rw [next]
    change (Reader.value (.item before :: outer)).feedAll _ = _
    rw [reads_tokens v]
    simpa [Reader.complete] using reads_items items (v :: before) outer rest

theorem reads_members : ∀ (fields before : List (Literal × Value)) (outer : List Frame)
    (rest : List Token),
    (Reader.afterMember before outer).feedAll
        ((Value.memberTokens fields).flatMap (Token.comma :: ·) ++ .closeObject :: rest) =
      (Reader.complete (.object (before.reverse ++ fields)) outer).feedAll rest
  | [], before, outer, rest => by
    rw [List.append_nil]
    rfl
  | (key, v) :: fields, before, outer, rest => by
    have next : (Value.memberTokens ((key, v) :: fields)).flatMap (Token.comma :: ·) ++
        .closeObject :: rest = .comma :: .string key :: .colon :: (v.tokens ++
          ((Value.memberTokens fields).flatMap (Token.comma :: ·) ++ .closeObject :: rest)) := by
      simp [Value.memberTokens]
    rw [next]
    change (Reader.value (.member before key :: outer)).feedAll _ = _
    rw [reads_tokens v]
    simpa [Reader.complete] using reads_members fields ((key, v) :: before) outer rest

end

/-- Every value is read back from its text, in either layout. -/
theorem parse?_render (layout : Layout) (v : Value) : Value.parse? (v.render layout) = some v := by
  have read := reads_tokens v [] []
  rw [List.append_nil] at read
  rw [Value.parse?, tokens?_render, Option.bind_some, Value.ofTokens?, read]
  rfl

end DecimalMachine.Json
