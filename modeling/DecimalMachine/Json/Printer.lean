import DecimalMachine.Json.Value

/-!
Written JSON, in two layouts: without any blank, or with each item and member on a line of its own.

Both are rows of pieces, tokens and the blanks between them, that differ only in the blanks.
-/

namespace DecimalMachine.Json

inductive Piece where
  | token (token : Token)
  | blanks (blanks : List Char)

def Piece.chars : Piece → List Char
  | .token t => t.chars
  | .blanks cs => cs

def Piece.token? : Piece → Option Token
  | .token t => some t
  | .blanks _ => none

inductive Layout where
  | compact
  | indented

namespace Layout

def newline : Layout → Nat → List Piece
  | .compact, _ => []
  | .indented, depth => [.blanks ('\n' :: List.replicate (2 * depth) ' ')]

def afterColon : Layout → List Piece
  | .compact => []
  | .indented => [.blanks [' ']]

def further (layout : Layout) (depth : Nat) (entry : List Piece) : List Piece :=
  .token .comma :: layout.newline depth ++ entry

/-- A container around its entries, which are at `depth`. An empty one has no blanks. -/
def enclosed (layout : Layout) (depth : Nat) (opening closing : Token) :
    List (List Piece) → List Piece
  | [] => [.token opening, .token closing]
  | entry :: rest =>
    .token opening :: layout.newline (depth + 1) ++ entry ++
      rest.flatMap (layout.further (depth + 1)) ++ layout.newline depth ++ [.token closing]

end Layout

namespace Value

mutual

def pieces (layout : Layout) (depth : Nat) : Value → List Piece
  | .null => [.token .null]
  | .bool b => [.token (.bool b)]
  | .integer z => [.token (.integer z)]
  | .fraction => [.token .fraction]
  | .string s => [.token (.string s)]
  | .array items =>
    layout.enclosed depth .openArray .closeArray (itemPieces layout (depth + 1) items)
  | .object fields =>
    layout.enclosed depth .openObject .closeObject (memberPieces layout (depth + 1) fields)

def itemPieces (layout : Layout) (depth : Nat) : List Value → List (List Piece)
  | [] => []
  | v :: rest => pieces layout depth v :: itemPieces layout depth rest

def memberPieces (layout : Layout) (depth : Nat) : List (Literal × Value) → List (List Piece)
  | [] => []
  | (key, v) :: rest =>
    (.token (.string key) :: .token .colon :: layout.afterColon ++ pieces layout depth v) ::
      memberPieces layout depth rest

end

def render (layout : Layout) (v : Value) : String :=
  String.ofList ((v.pieces layout 0).flatMap Piece.chars)

end Value

end DecimalMachine.Json
