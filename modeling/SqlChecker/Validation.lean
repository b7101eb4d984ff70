import SqlChecker.Lexer
import SqlChecker.Verdict

/-! # Validation of a source text

A source text is validated by judging its tokens and attaching to each problem the line it points
at. A text over the limit of the settings is not read at all. What happens on the way is recorded as
a list of events. -/
namespace SqlChecker

/-- What a validation may be asked to do differently. -/
structure Settings where
  /-- The bytes that a text may have, if they are limited. -/
  maxInputBytes? : Option Nat := none
  deriving DecidableEq, Repr

/-- Something that happens in a validation. -/
inductive Event where
  /-- The text is over the limit. -/
  | overLimit (limit : Nat)
  /-- The text has been split into so many tokens. -/
  | tokenized (tokens : Nat)
  /-- So many of the tokens are faults. -/
  | faulty (count : Nat)
  /-- The statement breaks off at the token with this index. -/
  | brokenOff (position : Nat)
  | validated (valid : Bool) (errors : Nat)
  deriving DecidableEq, Repr

/-- A report, and what happened until it was made. -/
structure Validation where
  report : Report
  events : List Event
  deriving DecidableEq, Repr

/-- The report on a text over the limit. -/
def Report.overLimit (limit : Nat) : Report :=
  ⟨[.locate ("SQL statement exceeds maximum length of " ++ String.ofList (Text.decimal limit) ++
    " bytes") none]⟩

/-- What is recorded of a verdict. -/
def Verdict.events : Verdict → List Event
  | accepted => []
  | faulty problems => [.faulty problems.length]
  | rejected position _ => [.brokenOff position]

namespace Validation

/-- Validates a text that is not over the limit. -/
def ofSource (source : List Char) : Validation :=
  let tokens := tokenize source
  let verdict := Verdict.ofTokens tokens
  let report := verdict.report.attachLines source
  ⟨report, .tokenized tokens.length :: verdict.events ++
    [.validated report.isValid report.errors.length]⟩

/-- The limit that a text is over, if it is over one. -/
def exceeded? (settings : Settings) (source : List Char) : Option Nat :=
  settings.maxInputBytes?.filter (· < Text.byteLength source)

/-- Validates a text. -/
def run (settings : Settings) (source : List Char) : Validation :=
  match exceeded? settings source with
  | some limit => ⟨.overLimit limit, [.overLimit limit]⟩
  | none => ofSource source

end Validation

/-- The report on a text under these settings. -/
def validate (settings : Settings) (source : List Char) : Report :=
  (Validation.run settings source).report

end SqlChecker
