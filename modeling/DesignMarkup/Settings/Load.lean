import DesignMarkup.Decimal.Shortest
import DesignMarkup.Settings.Basic
import DesignMarkup.Settings.Path

/-!
Settings from a file and from environment variables.  The variables come after the file.  Values
are taken generously: a number or a truth value can stand for a text, a number or a word for a
truth value.
-/

namespace DesignMarkup
namespace Settings

/-- A whole number as it counts in settings: one beyond the signed 64 bits is only known as a
binary number. -/
def settingNumber : Number → Number
  | .integer n =>
      if n < Nat.pow 2 63 then .integer n else .double (.ofFloat n.toNat.toUInt64.toFloat)
  | .double x => .double x

/-- The text of a binary number without an exponent. -/
def positionalText (x : Double) : String :=
  let (whole, fraction) := x.shortest.positional
  String.ofList ((if x.isNegative then ['-'] else []) ++ whole
    ++ (if fraction.isEmpty then [] else '.' :: fraction))

/-- A scalar as a text. -/
def settingText? : Json → Option String
  | .string s => some s
  | .bool b => some (if b then "true" else "false")
  | .number n =>
      match settingNumber n with
      | .integer n => some (String.ofList (Number.integerText n))
      | .double x => some (positionalText x)
  | _ => none

/-- The words for yes and for no. -/
def yesWords : List String :=
  ["1", "true", "on", "yes"]

def noWords : List String :=
  ["0", "false", "off", "no"]

/-- A scalar as a truth value. -/
def settingBool? : Json → Option Bool
  | .bool b => some b
  | .number (.integer n) => some (n ≠ 0)
  | .number (.double x) => some (x.significand ≠ 0)
  | .string s =>
      if s.toLower ∈ yesWords then some true
      else if s.toLower ∈ noWords then some false
      else none
  | _ => none

/-- A group of settings, by name or by position; items beyond the known ones do not matter. -/
def settingGroup? (names : List String) : Json → Option Json.Record
  | .object members => some ⟨members, false⟩
  | .array items => some ⟨names.zip items, true⟩
  | _ => none

/-- The settings that were gathered in a tree. -/
def ofGathered? (j : Json) : Option Settings :=
  let exports? (j : Json) := (settingGroup? ExportSettings.fieldNames j).bind
    (ExportSettings.ofRecord? settingText?)
  let autoTag? (j : Json) := (settingGroup? AutoTagSettings.fieldNames j).bind
    (AutoTagSettings.ofRecord? settingBool?)
  (settingGroup? fieldNames j).bind (ofRecord? exports? autoTag?)

/-- Set members along the paths that their names stand for. -/
def gather (root : Json) (members : List (String × Json)) : Json :=
  members.foldl (fun root member => setPath member.2 (pathSteps member.1) root) root

/-- The start of the names of the environment variables that hold settings, in lower case. -/
def variableStart : String :=
  "semtag__"

/-- A text with each `__` made a dot. -/
def dotted : List Char → List Char
  | '_' :: '_' :: rest => '.' :: dotted rest
  | c :: rest => c :: dotted rest
  | [] => []

/-- The path and value of a variable that holds a setting. -/
def ofVariable? (entry : String × String) : Option (String × Json) :=
  let name := entry.1.toLower.toList
  let start := variableStart.toList
  if start.isPrefixOf name then
    some (String.ofList (dotted (name.drop start.length)), .string entry.2)
  else none

/-- The ending of the name of a settings file. -/
def fileEnding : String :=
  ".json"

/-- The members of a settings file. -/
def fileMembers? (text : String) : Option (List (String × Json)) :=
  match Json.readValue? text with
  | some (.object members) => some members
  | _ => none

/-- The settings of an optional file's text and of the environment. -/
def load? (file : Option String) (environment : List (String × String)) : Option Settings := do
  let members ← match file with
    | some text => fileMembers? text
    | none => some []
  ofGathered? (gather (gather (.object []) members) (environment.filterMap ofVariable?))

end Settings
end DesignMarkup
