import SqlChecker.Diagnostic
import SqlChecker.Syntax.Run

/-! # Verdicts on a list of tokens

The tokens of a text are judged by its first statement. Faults among the tokens come first: if there
are any, they are all that is reported, even those after the first statement. Otherwise there is at
most one problem, a syntax error at the token where the statement breaks off, or at the last token
if it breaks off at the end. -/
namespace SqlChecker

/-- What is found in a list of tokens. -/
inductive Verdict where
  /-- The tokens begin with a statement. -/
  | accepted
  /-- Some tokens are faults. -/
  | faulty (problems : List Diagnostic)
  /-- The statement breaks off at the token with this index. -/
  | rejected (position : Nat) (problem : Diagnostic)
  deriving DecidableEq, Repr

namespace Verdict

/-- The faults among the tokens, as problems. -/
def faults (tokens : List Token) : List Diagnostic :=
  tokens.filterMap fun t => t.fault?.map (Diagnostic.locate · (some t))

/-- The token at which an error at an index is reported. -/
def tokenAt? (tokens : List Token) (position : Nat) : Option Token :=
  tokens[position]? <|> tokens.getLast?

/-- An error before the token at an index. -/
def syntaxProblem (tokens : List Token) (position : Nat) (e : SyntaxError) : Diagnostic :=
  let found := tokenAt? tokens position
  Diagnostic.locate (e.message ((found.map Token.value).getD "")) found

/-- Judges tokens, of which none is a fault, by the first statement. -/
def ofStatement (tokens : List Token) : Verdict :=
  match Goal.run [.statement] (tokens.map Token.terminal) with
  | .accepted _ => accepted
  | .rejected e rest =>
    let position := tokens.length - rest.length
    rejected position (syntaxProblem tokens position e)

/-- Judges tokens. -/
def ofTokens (tokens : List Token) : Verdict :=
  match faults tokens with
  | [] => ofStatement tokens
  | problems => faulty problems

/-- The problems found. -/
def report : Verdict → Report
  | accepted => ⟨[]⟩
  | faulty problems => ⟨problems⟩
  | rejected _ problem => ⟨[problem]⟩

end Verdict

/-- The problems of a list of tokens. -/
def parse (tokens : List Token) : Report := (Verdict.ofTokens tokens).report

end SqlChecker
