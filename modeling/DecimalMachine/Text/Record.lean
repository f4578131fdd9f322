/-!
The one-line description of a record: its name, and its fields in braces.
-/

namespace DecimalMachine.Text

def fieldText (field : String × String) : String := field.1 ++ ": " ++ field.2

def record (name : String) (fields : List (String × String)) : String :=
  name ++ " \x7b " ++ ", ".intercalate (fields.map fieldText) ++ " \x7d"

end DecimalMachine.Text
