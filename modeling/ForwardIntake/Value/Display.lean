import ForwardIntake.Numeric.Layout
import ForwardIntake.Value.Basic

/-!
# Displayed values

The one-line text of a value for people to read: `[1, "a", {"k": nil}]`.  Texts stand between
quotes as they are, raw bytes only show their number.
-/

namespace ForwardIntake

namespace Value

mutual

/-- The displayed text of a value. -/
def display : Value → String
  | .nil => "nil"
  | .bool true => "true"
  | .bool false => "false"
  | .int n => toString n.toInt
  | .uint n => toString n.toNat
  | .float x => FloatLayout.plain.write x
  | .text s => "\"" ++ s ++ "\""
  | .binary b => "(binary data, " ++ toString b.length ++ " bytes)"
  | .array items => "[" ++ ", ".intercalate (displayItems items) ++ "]"
  | .map fields => "\x7b" ++ ", ".intercalate (displayFields fields) ++ "\x7d"

/-- The displayed texts of the items of an array. -/
def displayItems : List Value → List String
  | [] => []
  | v :: rest => display v :: displayItems rest

/-- The displayed texts of the fields of a map. -/
def displayFields : List (String × Value) → List String
  | [] => []
  | (k, v) :: rest => ("\"" ++ k ++ "\": " ++ display v) :: displayFields rest

end

end Value

end ForwardIntake
