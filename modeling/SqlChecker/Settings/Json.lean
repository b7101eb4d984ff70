import SqlChecker.Json.Reader
import SqlChecker.Validation

/-! # Settings as JSON

Settings are written as an object with one member for the limit, which is null if there is none.
They are read from such an object, where other members are ignored and a missing limit is none, or
from an array that holds nothing but the limit. A limit is a natural number that fits into 64 bits,
written without sign, fraction or exponent. -/
namespace SqlChecker.Settings

/-- The name of the member for the limit. -/
def limitName : String := "max_input_bytes"

/-- The settings as a JSON value. -/
def toJson (settings : Settings) : Json :=
  .object [Json.member limitName (match settings.maxInputBytes? with
    | some limit => .ofNat limit
    | none => .null)]

/-- The limit that a JSON value is written for. -/
def limitOfJson? : Json → Option (Option Nat)
  | .null => some none
  | .number literal => (Text.wordOfDecimal? literal).map some
  | _ => none

/-- The settings with the limit that these values give, of which there may be one. -/
def ofLimits? : List Json → Option Settings
  | [] => some {}
  | [value] => (limitOfJson? value).map fun limit => { maxInputBytes? := limit }
  | _ => none

/-- The members of an object by the text of their names, if each name stands for one. -/
def namedMembers? (members : List (List Char × Json)) : Option (List (List Char × Json)) :=
  members.mapM fun (name, value) => (Json.unescape? name).map fun text => (text, value)

/-- The settings that a JSON value is written for. -/
def ofJson? : Json → Option Settings
  | .array items => ofLimits? items
  | .object members => do
    let named ← namedMembers? members
    ofLimits? ((named.filter fun (name, _) => name == limitName.toList).map Prod.snd)
  | _ => none

/-- The settings that a text is written for. -/
def parse? (text : List Char) : Option Settings := (Json.parse? text).bind ofJson?

end SqlChecker.Settings
