import ForwardIntake.Regex.Pattern
import ForwardIntake.Text.Alphanumeric
import ForwardIntake.Text.Blank
import ForwardIntake.Text.Decimal
import ForwardIntake.Text.Natural
import ForwardIntake.Text.Utf8

/-!
# Log filters

A filter is a list of directives between commas, as in `warn,net[accept{peer}]=debug`.  A directive
names a level for what is logged from a target, from a span, or from a span with certain fields, and
each of these parts may be missing.  The value of a field is a number or a regular expression.  A
directive that cannot be read is left out of the filter, and the program warns of it.

A directive is read in one pass over its characters, from `Place` to `Place`.
-/

namespace ForwardIntake

namespace LogFilter

/-- Why a directive cannot be read. -/
inductive Fault where
  /-- Its parts do not make a directive. -/
  | form
  /-- What stands behind its equals sign is no level. -/
  | level
  /-- The value of its field is no pattern. -/
  | field (cause : Regex.Fault)
  deriving DecidableEq, Repr

/-- The text of a fault. -/
def Fault.message : Fault → String
  | .form => "invalid filter directive"
  | .level => "error parsing level filter: expected one of \"off\", \"error\", \"warn\", " ++
      "\"info\", \"debug\", \"trace\", or a number 0-5"
  | .field cause => "invalid field filter: " ++ cause.message

/-! ### Levels and fields -/

/-- The names of the levels. -/
def levelNames : List String :=
  ["off", "error", "warn", "info", "debug", "trace"]

/-- Whether a text stands for a level: by a name in any case, by a number, or by being empty. -/
def isLevel (text : String) : Bool :=
  text.isEmpty || (Natural.below? 6 text).isSome || levelNames.contains text.toLower

/-- What is wrong with a field: a name, perhaps with a value behind an equals sign, up to the next
equals sign. -/
def fieldFault? (text : String) : Option Regex.Fault :=
  match text.splitOn "=" with
  | _ :: value :: _ => if Decimal.isNumber value then none else Regex.fault? value.toList
  | _ => none

/-! ### Directives -/

/-- Where the reader of a directive is. -/
inductive Place where
  | start
  /-- In a level, or in the name of a target. -/
  | head
  | span
  /-- In a field, from so many bytes behind the beginning. -/
  | field (beginning : Nat)
  /-- Behind the field. -/
  | fieldEnd
  /-- Behind the span. -/
  | spanEnd
  /-- In the level, from so many bytes behind the beginning. -/
  | level (beginning : Nat)
  deriving DecidableEq, Repr

/-- What is wrong with the part of a directive between two places, if it is to be a field.  There
are no fields without a text. -/
def betweenFault? (directive : Bytes) (beginning after : Nat) : Option Fault :=
  if beginning = after then some .form
  else
    match Utf8.decode? ((directive.take after).drop beginning) with
    | some text => (fieldFault? text).map .field
    | none => some .form

/-- Reads a character of a directive behind `read` bytes. -/
def Place.step (directive : Bytes) (read : Nat) (c : Char) : Place → Except Fault Place
  | .start =>
    if c = '[' then .ok .span
    else if c = '-' ∨ c = ':' ∨ c = '_' ∨ Alphanumeric.test c then .ok .head
    else .error .form
  | .head => .ok (if c = '=' then .level (read + 1) else if c = '[' then .span else .head)
  | .span => .ok (if c = ']' then .spanEnd else if c = '\x7b' then .field (read + 1) else .span)
  | .field beginning =>
    if c = '\x7d' then
      match betweenFault? directive beginning read with
      | some fault => .error fault
      | none => .ok .fieldEnd
    else .ok (.field beginning)
  | .fieldEnd => if c = ']' then .ok .spanEnd else .error .form
  | .spanEnd => if c = '=' then .ok (.level (read + 1)) else .error .form
  | .level beginning => .ok (.level beginning)

/-- Reads characters of a directive behind `read` bytes. -/
def Place.steps (directive : Bytes) (read : Nat) : List Char → Place → Except Fault Place
  | [], place => .ok place
  | c :: rest, place =>
    match place.step directive read c with
    | .ok place => place.steps directive (read + c.utf8Size) rest
    | .error fault => .error fault

/-- What is wrong with a directive.  The blanks at its ends do not count as parts of it, but the
texts of its field and its level are taken as far from its very beginning as they stand from the
first character that is not blank, so that blanks in front shift them. -/
def fault? (directive : String) : Option Fault :=
  let bytes := Utf8.encode directive
  match Place.start.steps bytes 0 (Blank.trim directive.toList) with
  | .error fault => some fault
  | .ok .head | .ok .spanEnd => none
  | .ok (.level beginning) =>
    if (Utf8.decode? (bytes.drop beginning)).any isLevel then none else some .level
  | .ok _ => some .form

/-- The directives of a filter. -/
def directives (filter : String) : List String :=
  (filter.splitOn ",").filter fun directive => !directive.isEmpty

/-- What is said of a directive that is left out. -/
def warning (directive : String) (fault : Fault) : String :=
  "ignoring `" ++ directive ++ "`: " ++ fault.message

/-- What is said of a filter: a line for each directive that is left out, in their order. -/
def warnings (filter : String) : List String :=
  (directives filter).filterMap fun directive => (fault? directive).map (warning directive)

end LogFilter

end ForwardIntake
