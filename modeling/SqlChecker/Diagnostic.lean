import SqlChecker.Text.Decimal
import SqlChecker.Text.Line
import SqlChecker.Token.Basic

/-! # Diagnostics

A diagnostic is one problem with a source text: what is wrong, and where. It points at a token, or
at nothing if there is none to point at, in which case line and word are zero. A report is all that
is to be said of a text, and a text of which nothing is to be said is valid. -/
namespace SqlChecker

/-- A problem and its place. -/
structure Diagnostic where
  message : String
  /-- The line, counted from one, or zero. -/
  line : Nat
  /-- The word in the line, counted from one, or zero. -/
  word : Nat
  /-- The text of the line, once it has been attached. -/
  lineContent : String := ""
  /-- The offset in bytes of the token pointed at. -/
  offset? : Option Nat := none
  deriving DecidableEq, Repr

namespace Diagnostic

/-- A problem with the token it points at, or with the absence of any. -/
def locate (message : String) : Option Token → Diagnostic
  | some t => { message, line := t.line, word := t.word, offset? := some t.span.start }
  | none => { message, line := 0, word := 0 }

/-- The place and the problem in one line. -/
def headline (d : Diagnostic) : String :=
  "line " ++ String.ofList (Text.decimal d.line) ++ ", word " ++ String.ofList (Text.decimal d.word)
    ++ ": " ++ d.message

end Diagnostic

/-- The problems of a text, in order. -/
structure Report where
  errors : List Diagnostic
  deriving DecidableEq, Repr

namespace Report

/-- No problem is reported. -/
def isValid (r : Report) : Bool := r.errors.isEmpty

/-- Gives each problem the text of its line. -/
def attachLines (r : Report) (source : List Char) : Report :=
  let lines := Text.lines source
  ⟨r.errors.map fun d => { d with lineContent := String.ofList (Text.lineOf lines d.line) }⟩

end Report
end SqlChecker
