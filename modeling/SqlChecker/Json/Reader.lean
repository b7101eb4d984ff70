import SqlChecker.Json.Basic
import SqlChecker.Json.Token

/-! # Reading JSON values

A value is built from its tokens one at a time. Between tokens the reader knows the arrays and
objects that are open, innermost first, and what may come next; each token either moves it on or
shows that the text is no value. So nesting needs no recursion, and values may be nested to any
depth. -/
namespace SqlChecker.Json

/-- An array or an object that is open, with what it holds so far, last first. -/
inductive Enclosure where
  | array (items : List Json)
  /-- The object waits for the value of a member. -/
  | object (members : List (List Char × Json)) (name : List Char)

/-- What may come next. -/
inductive Expected where
  | value
  /-- A value, or the end of an array that has no item yet. -/
  | firstItem
  /-- The name of a member, or the end of an object that has no member yet. -/
  | firstMember
  /-- The name of a further member. -/
  | nextMember (members : List (List Char × Json))
  /-- The colon after a name. -/
  | colon (members : List (List Char × Json)) (name : List Char)
  /-- The end of whatever the value just read stands in, or a comma. -/
  | afterValue (value : Json)

/-- A reader between two tokens. -/
structure Reader where
  expected : Expected
  enclosures : List Enclosure

namespace Reader

/-- A reader of a whole text. -/
def start : Reader := ⟨.value, []⟩

/-- The reader after a token that a value begins with. -/
def beginValue? (enclosures : List Enclosure) : Token → Option Reader
  | .null => some ⟨.afterValue .null, enclosures⟩
  | .bool b => some ⟨.afterValue (.bool b), enclosures⟩
  | .number literal => some ⟨.afterValue (.number literal), enclosures⟩
  | .string body => some ⟨.afterValue (.string body), enclosures⟩
  | .beginArray => some ⟨.firstItem, .array [] :: enclosures⟩
  | .beginObject => some ⟨.firstMember, enclosures⟩
  | _ => none

/-- The reader after a token that follows a value. -/
def afterValue? (value : Json) : List Enclosure → Token → Option Reader
  | .array items :: enclosures, .comma => some ⟨.value, .array (value :: items) :: enclosures⟩
  | .array items :: enclosures, .endArray =>
    some ⟨.afterValue (.array (value :: items).reverse), enclosures⟩
  | .object members name :: enclosures, .comma =>
    some ⟨.nextMember ((name, value) :: members), enclosures⟩
  | .object members name :: enclosures, .endObject =>
    some ⟨.afterValue (.object ((name, value) :: members).reverse), enclosures⟩
  | _, _ => none

/-- The reader after a token, if the token may come next. -/
def next? (r : Reader) (token : Token) : Option Reader :=
  match r.expected, token with
  | .value, token => beginValue? r.enclosures token
  | .firstItem, .endArray => some ⟨.afterValue (.array []), r.enclosures.tail⟩
  | .firstItem, token => beginValue? r.enclosures token
  | .firstMember, .endObject => some ⟨.afterValue (.object []), r.enclosures⟩
  | .firstMember, .string name => some ⟨.colon [] name, r.enclosures⟩
  | .nextMember members, .string name => some ⟨.colon members name, r.enclosures⟩
  | .colon members name, .colon => some ⟨.value, .object members name :: r.enclosures⟩
  | .afterValue value, token => afterValue? value r.enclosures token
  | _, _ => none

/-- The value read, if nothing is open or missing. -/
def result? (r : Reader) : Option Json :=
  match r.expected, r.enclosures with
  | .afterValue value, [] => some value
  | _, _ => none

end Reader

/-- The value that some tokens make up. -/
def ofTokens? (tokens : List Token) : Option Json :=
  (tokens.foldlM Reader.next? Reader.start).bind Reader.result?

/-- The value that a text is written for. -/
def parse? (text : List Char) : Option Json := (tokens? text).bind ofTokens?

end SqlChecker.Json
