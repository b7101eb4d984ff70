import SqlChecker.Text.Separated

/-! # Inputs

Where the text to check comes from: the arguments themselves, a file, or standard input. Reading it
may fail, because there is no file to read or because what is read is no text. -/
namespace SqlChecker

/-- Where the text to check comes from. -/
inductive Input where
  | inline (text : String)
  | file (path : String)
  | standard
  deriving DecidableEq, Repr

/-- The path of a hyphen, with nothing after it that leads elsewhere. -/
def isHyphenPath (path : List Char) : Bool :=
  match Text.separate '/' path with
  | [] => false
  | first :: rest => first == ['-'] && rest.all fun part => part == [] || part == ['.']

/-- A hyphen, and slashes behind it with a dot or nothing after each. -/
def IsHyphen (path : List Char) : Prop :=
  ∃ parts : List (List Char), (∀ part ∈ parts, part = [] ∨ part = ['.']) ∧
    path = '-' :: parts.flatMap ('/' :: ·)

theorem isHyphenPath_iff {path : List Char} : isHyphenPath path = true ↔ IsHyphen path := by
  constructor
  · intro h
    unfold isHyphenPath at h
    split at h
    · cases h
    · next first parts hparts =>
      simp only [Bool.and_eq_true, beq_iff_eq, List.all_eq_true, Bool.or_eq_true] at h
      obtain ⟨rfl, hdots⟩ := h
      exact ⟨parts, hdots, Text.eq_append_flatMap_of_separate hparts⟩
  · rintro ⟨parts, hdots, rfl⟩
    have hslash : ∀ part ∈ parts, '/' ∉ part := by
      intro part hpart
      rcases hdots part hpart with rfl | rfl <;> decide
    have hhyphen : '/' ∉ ['-'] := by decide
    have hparts := Text.separate_append_flatMap hhyphen hslash
    rw [List.singleton_append] at hparts
    simp only [isHyphenPath, hparts, Bool.and_eq_true, beq_iff_eq, List.all_eq_true,
      Bool.or_eq_true, true_and]
    exact hdots

namespace Input

/-- The input that is asked for: a text before a file, and standard input if there is neither or the
file is a hyphen. -/
def choose (sql? file? : Option String) : Input :=
  match sql?, file? with
  | some sql, _ => inline sql
  | none, some path => if isHyphenPath path.toList then standard else file path
  | none, none => standard

/-- How an input is named. -/
def shown : Input → String
  | inline _ => "--sql"
  | file path => path
  | standard => "stdin"

/-- The text of an input that needs not be read. -/
def text? : Input → Option String
  | inline text => some text
  | _ => none

end Input

/-- Why nothing can be read. -/
inductive ReadFault where
  | notFound
  | notADirectory
  | isADirectory
  /-- The bytes read are not UTF-8. -/
  | notText
  /-- Another reason, as the system states it. -/
  | other (description : String)
  deriving DecidableEq, Repr

/-- What the system says of a fault. -/
def ReadFault.description : ReadFault → String
  | notFound => "No such file or directory (os error 2)"
  | notADirectory => "Not a directory (os error 20)"
  | isADirectory => "Is a directory (os error 21)"
  | notText => "stream did not contain valid UTF-8"
  | other description => description

/-- An input that could not be read. -/
structure ReadError where
  /-- The path of the file; none for standard input. -/
  path? : Option String
  fault : ReadFault
  deriving DecidableEq, Repr

namespace ReadError

/-- What is said of an input that could not be read. -/
def message (e : ReadError) : String :=
  let subject := match e.path? with
    | some path => "'" ++ path ++ "'"
    | none => "standard input"
  "Failed to read " ++ subject ++ ": " ++ e.fault.description

/-- The message with its cause. -/
def report (e : ReadError) : String := e.message ++ ": " ++ e.fault.description

end ReadError

/-- The text that was read, or the error at the input it was to be read from. -/
def decodeInput (path? : Option String) : Except ReadFault ByteArray → Except ReadError String
  | .error fault => .error ⟨path?, fault⟩
  | .ok bytes => match String.fromUTF8? bytes with
    | some text => .ok text
    | none => .error ⟨path?, .notText⟩

end SqlChecker
