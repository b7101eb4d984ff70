import Mathlib.Order.FixedPoints
import SqlChecker.Proofs.Grammar.Basic
import Mathlib.Order.CompletePartialOrder

/-! # The grammar of expressions

An expression may hold others: in parentheses, as an argument, and as an operand.  Its parts are
therefore written for a language `E` of the expressions inside it, and `expression` is the least
language for which the rule of an expression holds (`expression_eq`), so that just the words with a
derivation are in it.
-/
namespace SqlChecker.Grammar
open Terminal Computability

/-- The arguments of a function. -/
def argumentsOf (E : Language Terminal) : Language Terminal :=
  optional (star + avoiding (among [.operator .star]) (list E))

/-- Expressions joined by `AND` and `OR`. -/
def conditionOf (E : Language Terminal) : Language Terminal :=
  E * ((keyword .AND + keyword .OR) * E)∗

/-- A name, a function with its arguments, a literal, a star, or a condition in parentheses. -/
def primaryOf (E : Language Terminal) : Language Terminal :=
  anyOf isIdentifier * parenthesized (argumentsOf E) + anyOf isIdentifier * qualifier +
    number + string + keyword .NULL + star + parenthesized (conditionOf E)

/-- What may follow a primary: a predicate, or an operator with its right operand. -/
def suffixOf (E : Language Terminal) : Language Terminal :=
  keyword .IS * optional (keyword .NOT) * keyword .NULL +
    optional (keyword .NOT) * keyword .IN * (row + parenthesized row) +
    optional (keyword .NOT) * keyword .LIKE * E +
    optional (keyword .NOT) * keyword .BETWEEN * E * keyword .AND * E +
    anyOf isOperator * E

/-- The rule of an expression. -/
def expressionOf (E : Language Terminal) : Language Terminal :=
  optional sign * primaryOf E * optional (suffixOf E)

theorem avoiding_mono (F : Terminal → Bool) {L M : Language Terminal} (h : L ≤ M) :
    avoiding F L ≤ avoiding F M :=
  fun _ hw => ⟨h hw.1, hw.2⟩

theorem expressionOf_mono : Monotone expressionOf := by
  intro D E h
  have list_mono : list D ≤ list E := by
    unfold list
    gcongr
  have hargs : argumentsOf D ≤ argumentsOf E := by
    unfold argumentsOf optional
    gcongr
    exact avoiding_mono _ list_mono
  have hprimary : primaryOf D ≤ primaryOf E := by
    unfold primaryOf parenthesized conditionOf
    gcongr
  unfold expressionOf suffixOf optional
  gcongr

/-- An expression. -/
def expression : Language Terminal := OrderHom.lfp ⟨expressionOf, expressionOf_mono⟩

/-- The rule of an expression holds of expressions. -/
theorem expression_eq : expressionOf expression = expression :=
  OrderHom.map_lfp ⟨expressionOf, expressionOf_mono⟩

theorem nil_notMem_expression : [] ∉ expression := by
  have primary : [] ∉ primaryOf expression := by
    simp only [primaryOf, parenthesized, mark, number, string, keyword, star, operator,
      Language.mem_add, nil_mem_mul_iff, nil_notMem_anyOf, false_and, or_self, not_false_eq_true]
  rw [← expression_eq]
  simp [expressionOf, primary]

/-- The condition of a clause. -/
def condition : Language Terminal := conditionOf expression

end SqlChecker.Grammar
