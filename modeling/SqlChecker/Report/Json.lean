import SqlChecker.Diagnostic
import SqlChecker.Json.Basic

/-! # Reports as JSON

A report is written as one object on one line. The offsets of its problems are left out: they serve
to mark the place in the text. -/
namespace SqlChecker

/-- A problem as a JSON value. -/
def Diagnostic.toJson (d : Diagnostic) : Json :=
  .object [
    Json.member "message" (.ofText d.message),
    Json.member "line" (.ofNat d.line),
    Json.member "word" (.ofNat d.word),
    Json.member "lineContent" (.ofText d.lineContent)]

namespace Report

/-- A report as a JSON value. -/
def toJson (r : Report) : Json :=
  .object [
    Json.member "isValid" (.bool r.isValid),
    Json.member "errors" (.array (r.errors.map Diagnostic.toJson))]

/-- A report as a line of JSON. -/
def jsonLine (r : Report) : List Char := r.toJson.render ++ ['\n']

end Report
end SqlChecker
