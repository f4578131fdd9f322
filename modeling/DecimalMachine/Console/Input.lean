import DecimalMachine.Console
import DecimalMachine.Text.Blank
import DecimalMachine.Text.Line

/-!
The two sources of integers: a list of values, and the integer tokens of a byte stream, which is
read line by line.
-/

namespace DecimalMachine

structure Script where
  values : List Int64

instance : Source Script where
  read
    | ⟨[]⟩ => ({ outcome := .ok none }, ⟨[]⟩)
    | ⟨value :: rest⟩ => ({ outcome := .ok (some value) }, ⟨rest⟩)

structure IntegerStream where
  /-- The tokens of the current line that are still to be read. -/
  pending : List String := []
  unread : List Text.Line

namespace IntegerStream

def firstInteger : List String → List String × Option (Int64 × List String)
  | [] => ([], none)
  | token :: rest =>
    match Decimal.int64? token with
    | some value => ([], some (value, rest))
    | none =>
      let (skipped, found) := firstInteger rest
      (token :: skipped, found)

/-- Reads on through the lines until a token is an integer. A line that is no text fails, and is
done with. -/
def readFrom (pending : List String) : List Text.Line → Reading × IntegerStream
  | [] =>
    match firstInteger pending with
    | (skipped, some (value, rest)) => ({ outcome := .ok (some value), skipped }, ⟨rest, []⟩)
    | (skipped, none) => ({ outcome := .ok none, skipped }, ⟨[], []⟩)
  | line :: unread =>
    match firstInteger pending with
    | (skipped, some (value, rest)) =>
      ({ outcome := .ok (some value), skipped }, ⟨rest, line :: unread⟩)
    | (skipped, none) =>
      match Text.ofUtf8? line with
      | none => ({ outcome := .error .invalidUtf8, skipped }, ⟨[], unread⟩)
      | some text =>
        let (reading, rest) := readFrom (Text.tokens text) unread
        ({ reading with skipped := skipped ++ reading.skipped }, rest)

end IntegerStream

instance : Source IntegerStream where
  read input := IntegerStream.readFrom input.pending input.unread

instance {ι κ : Type} [Source ι] [Source κ] : Source (ι ⊕ κ) where
  read
    | .inl input => (Source.read input).map id .inl
    | .inr input => (Source.read input).map id .inr

end DecimalMachine
