import SqlChecker.Verdict

/-! # Verdicts

The verdict on tokens of which none is a fault is that of the machine.  A syntax error is reported
at the first token that is left over, or at the last one if none is.
-/
namespace SqlChecker

variable {tokens ts : List Token} {t : Token} {e : SyntaxError}

/-- What the grammar sees of some tokens from a place on. -/
def terminalsFrom (tokens : List Token) (position : Nat) : List Terminal :=
  (tokens.drop position).map Token.terminal

theorem drop_terminalsFrom (tokens : List Token) (position count : Nat) :
    (terminalsFrom tokens position).drop count = terminalsFrom tokens (position + count) := by
  rw [terminalsFrom, terminalsFrom, ← List.map_drop, List.drop_drop]

theorem length_terminalsFrom (tokens : List Token) (position : Nat) :
    (terminalsFrom tokens position).length = tokens.length - position := by
  rw [terminalsFrom, List.length_map, List.length_drop]

/-- Before a token there is what the grammar sees of it. -/
theorem terminalsFrom_eq_cons {t : Token} {position : Nat} (h : tokens[position]? = some t) :
    terminalsFrom tokens position = t.terminal :: terminalsFrom tokens (position + 1) := by
  obtain ⟨hlt, rfl⟩ := List.getElem?_eq_some_iff.mp h
  rw [terminalsFrom, List.drop_eq_getElem_cons hlt, List.map_cons, terminalsFrom]

theorem Token.terminal_eq_keyword_iff {k : Keyword} :
    t.terminal = .keyword k ↔ t.kind = .keyword k := by
  unfold Token.terminal
  cases t.kind <;> simp

theorem Token.terminal_eq_punctuation_iff {p : Punctuation} :
    t.terminal = .punctuation p ↔ t.kind = .punctuation p := by
  unfold Token.terminal
  cases t.kind <;> simp

namespace Verdict

theorem faults_eq_nil_iff : faults tokens = [] ↔ ∀ t ∈ tokens, t.fault? = none := by
  simp [faults, List.filterMap_eq_nil_iff]

/-- Tokens of which none is a fault are judged by their first statement. -/
theorem ofTokens_eq_ofStatement (h : ∀ t ∈ tokens, t.fault? = none) :
    ofTokens tokens = ofStatement tokens := by
  rw [ofTokens, faults_eq_nil_iff.mpr h]

/-- An error within the first tokens is reported at one of them, whatever comes after. -/
theorem syntaxProblem_append {position : Nat} (h : position < tokens.length) (ts : List Token)
    (e : SyntaxError) :
    syntaxProblem (tokens ++ ts) position e = syntaxProblem tokens position e := by
  simp only [syntaxProblem, tokenAt?, List.getElem?_append_left h, List.getElem?_eq_getElem h]
  rfl

/-- An error at the end is reported at the last token. -/
theorem line_syntaxProblem_length :
    (syntaxProblem (tokens ++ [t]) (tokens ++ [t]).length e).line = t.line := by
  simp [syntaxProblem, tokenAt?, Diagnostic.locate]

end Verdict

/-- Validity is the absence of faults and a statement at the front. -/
theorem isValid_parse_iff :
    (parse tokens).isValid = true ↔ (∀ t ∈ tokens, t.fault? = none) ∧
      ∃ rest, Goal.run [.statement] (tokens.map Token.terminal) = .accepted rest := by
  rw [← Verdict.faults_eq_nil_iff, parse, Verdict.ofTokens]
  cases hf : Verdict.faults tokens with
  | cons d ds => simp [Verdict.report, Report.isValid]
  | nil =>
    rw [Verdict.ofStatement]
    cases hr : Goal.run [.statement] (tokens.map Token.terminal) <;>
      simp [Verdict.report, Report.isValid]

/-- Tokens whose first statement is accepted have no problems. -/
theorem parse_of_accepted (h : ∀ t ∈ tokens, t.fault? = none) {rest : List Terminal}
    (hr : Goal.run [.statement] (tokens.map Token.terminal) = .accepted rest) :
    parse tokens = ⟨[]⟩ := by
  rw [parse, Verdict.ofTokens_eq_ofStatement h, Verdict.ofStatement, hr]
  rfl

theorem Verdict.ofTokens_of_rejected (h : ∀ t ∈ tokens, t.fault? = none) {rest : List Terminal}
    (hr : Goal.run [.statement] (tokens.map Token.terminal) = .rejected e rest) :
    ofTokens tokens = .rejected (tokens.length - rest.length)
      (syntaxProblem tokens (tokens.length - rest.length) e) := by
  rw [ofTokens_eq_ofStatement h, ofStatement, hr]

/-- Tokens whose first statement is rejected have one problem. -/
theorem parse_of_rejected (h : ∀ t ∈ tokens, t.fault? = none) {rest : List Terminal}
    (hr : Goal.run [.statement] (tokens.map Token.terminal) = .rejected e rest) :
    parse tokens = ⟨[Verdict.syntaxProblem tokens (tokens.length - rest.length) e]⟩ := by
  rw [parse, Verdict.ofTokens_of_rejected h hr]
  rfl

end SqlChecker
