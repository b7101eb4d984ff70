import SqlChecker.Diagnostic
import SqlChecker.Text.Byte

/-! # Reports for reading

Each problem is written as a headline. If it has a line, that line follows, and if it has a place
in the text, a mark under that place. The lines that quote the text begin alike, so that headlines
stand out. A mark is set by counting characters, so that it stands under its place however many
bytes the characters before it take. -/
namespace SqlChecker

/-- What a line that quotes the text begins with. -/
def Report.margin : List Char := "  | ".toList

namespace Diagnostic

/-- The characters after the last newline. -/
def lastLine (text : List Char) : List Char :=
  (text.reverse.takeWhile (· != '\n')).reverse

/-- How many characters stand before the place of a problem in its line, if the place is one between
characters of the text. -/
def column? (d : Diagnostic) (source : List Char) : Option Nat := do
  let (front, _) ← Text.splitAtByte? (← d.offset?) source
  return (lastLine front).length

/-- The line of a problem without the carriage returns at its end. -/
def shownLine (d : Diagnostic) : List Char :=
  (d.lineContent.toList.reverse.dropWhile (· == '\r')).reverse

/-- The lines that quote the text. -/
def quotation (d : Diagnostic) (source : List Char) : List (List Char) :=
  (Report.margin ++ d.shownLine) ::
    (d.column? source).toList.map fun column =>
      Report.margin ++ (List.replicate column ' ' ++ ['^'])

/-- The lines on one problem. -/
def plainLines (d : Diagnostic) (source : List Char) : List (List Char) :=
  d.headline.toList :: if d.line = 0 then [] else d.quotation source

end Diagnostic

namespace Report

/-- The lines of a report on a text. -/
def plainLines (r : Report) (source : List Char) : List (List Char) :=
  if r.isValid then ["OK".toList] else r.errors.flatMap (·.plainLines source)

/-- A report on a text, for reading. -/
def plain (r : Report) (source : List Char) : List Char :=
  (r.plainLines source).flatMap (· ++ ['\n'])

end Report
end SqlChecker
