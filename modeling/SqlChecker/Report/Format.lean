import SqlChecker.Report.Json
import SqlChecker.Report.Plain

/-! # Report formats

A report is printed for programs or for people; either form ends with a newline. -/
namespace SqlChecker

/-- How a report is printed. -/
inductive Format where
  | json
  | text
  deriving DecidableEq, Repr

/-- The format with a name. -/
def Format.ofName? (name : String) : Option Format :=
  if name = "json" then some json else if name = "text" then some text else none

/-- A report on a text, printed in a format. -/
def Report.render (r : Report) (source : List Char) : Format → List Char
  | .json => r.jsonLine
  | .text => r.plain source

end SqlChecker
