import SqlChecker.Json.Quoted
import SqlChecker.Text.Decimal

/-! # JSON values

Values of the JSON data format. Numbers and strings are kept as they are written, so that a value
can be passed over without being understood: a number may be too large for any use, and a string may
hold half of a pair of units. What they stand for is read off when it is wanted. The members of an
object keep their order and may repeat a name. -/
namespace SqlChecker

/-- A JSON value. -/
inductive Json where
  | null
  | bool (b : Bool)
  /-- A number by its literal. -/
  | number (literal : List Char)
  /-- A string by what stands between its quotes. -/
  | string (body : List Char)
  | array (items : List Json)
  /-- Names, as they stand between quotes, and values. -/
  | object (members : List (List Char × Json))

namespace Json

/-- A text as a string. -/
def ofText (text : String) : Json := string (escape text.toList)

/-- A natural number. -/
def ofNat (n : Nat) : Json := number (Text.decimal n)

/-- A member of an object, by the text of its name. -/
def member (name : String) (value : Json) : List Char × Json := (escape name.toList, value)

/-- Puts a comma between texts. -/
def commaSeparated (texts : List (List Char)) : List Char := [','].intercalate texts

mutual

/-- The text of a value without blanks. -/
def render : Json → List Char
  | null => "null".toList
  | bool b => if b then "true".toList else "false".toList
  | number literal => literal
  | string body => '"' :: (body ++ ['"'])
  | array items => '[' :: (commaSeparated (renderItems items) ++ [']'])
  | object members => '\x7b' :: (commaSeparated (renderMembers members) ++ ['\x7d'])

/-- The texts of the items of an array. -/
def renderItems : List Json → List (List Char)
  | [] => []
  | item :: items => render item :: renderItems items

/-- The texts of the members of an object. -/
def renderMembers : List (List Char × Json) → List (List Char)
  | [] => []
  | (name, value) :: members =>
    ('"' :: (name ++ '"' :: ':' :: render value)) :: renderMembers members

end

end Json
end SqlChecker
