import SqlChecker.Proofs.Grammar.Expression
import SqlChecker.Proofs.Recognition.Phrase

/-! # Expressions are recognized

An expression takes at least one terminal before it meets an expression inside it.  So if
expressions are recognized within one bound, their parts and then they themselves are recognized
within the next: `recognizes_expression` follows by induction on the bound.
-/
namespace SqlChecker.Goal
open Matcher Terminal RecognizesBefore Computability

/-- How expressions begin and go on. -/
def expressionProfile : Profile where
  first t := isIdentifier t || among [.number, .string, .keyword .NULL, .operator .plus,
    .operator .minus, .operator .star, .punctuation .leftParen] t
  extend t := Terminal.isOperator t || among [.punctuation .leftParen, .punctuation .dot,
    .keyword .NOT, .keyword .IS, .keyword .IN, .keyword .LIKE, .keyword .BETWEEN] t
  empty := false

/-- How conditions begin and go on. -/
def conditionProfile : Profile where
  first := expressionProfile.first
  extend t := expressionProfile.extend t || among [.keyword .AND, .keyword .OR] t
  empty := false

/-- How primaries begin and go on. -/
def primaryProfile : Profile where
  first t := isIdentifier t || among [.number, .string, .keyword .NULL, .operator .star,
    .punctuation .leftParen] t
  extend := among [.punctuation .leftParen, .punctuation .dot]
  empty := false

/-- How suffixes begin and go on. -/
def suffixProfile : Profile where
  first t := Terminal.isOperator t || among [.keyword .NOT, .keyword .IS, .keyword .IN,
    .keyword .LIKE, .keyword .BETWEEN] t
  extend := expressionProfile.extend
  empty := true

/-! ### Words before an operand -/

/-- **Negation.**  `NOT` before another word than that of a predicate belongs to what follows. -/
theorem recognizes_negated {n : Nat} {m : Matcher} {L : Language Terminal} {p : Profile}
    (h : Recognizes n m L p) (hp : p.first = among predicateWords) (he : p.empty = false) :
    Recognizes (n + 1) (negated m) (Grammar.optional (Grammar.keyword .NOT * L))
      ⟨among [.keyword .NOT], fun t => among [.keyword .NOT] t || p.extend t, true⟩ where
  sound {ts rest} hl hE hr := by
    cases ts with
    | nil =>
      obtain rfl : [] = rest := by simpa [negated] using hr
      exact ⟨[], Or.inl rfl, rfl⟩
    | cons t ts =>
      rw [negated] at hr
      split at hr
      · next ht =>
        obtain ⟨w, hw, rfl⟩ := h.sound (by simpa using hl) hE hr
        exact ⟨t :: w, Or.inr (Grammar.cons_mem_anyOf_mul (by simp [ht.1]) hw), rfl⟩
      · exact ⟨[], Or.inl rfl, by simpa using hr⟩
  complete {w rest} hw hl hE hrest := by
    rcases Grammar.mem_optional_iff.mp hw with rfl | hw
    · cases rest with
      | nil => rfl
      | cons t rest =>
        have ht : t ≠ .keyword .NOT := by
          rintro rfl
          exact absurd (hrest _ rfl) (by simp [among])
        rw [List.nil_append, negated, if_neg (fun hn => ht hn.1)]
    · obtain ⟨t, v, ht, hv, rfl⟩ := Grammar.mem_anyOf_mul_iff.mp hw
      have hlt : v.length < n := by simpa using hl
      have hlead : (v ++ rest).head?.any (among predicateWords) = true := by
        cases v with
        | nil =>
          rw [h.empty (by omega) hv] at he
          exact absurd he (by decide)
        | cons u v => simpa [hp] using h.first hv hlt
      rw [List.cons_append, negated, if_pos ⟨by simpa using ht, hlead⟩]
      exact h.complete hv hlt hE (hrest.mono fun t ht => by simp [ht])
  first {t w} hw _ := by
    rcases Grammar.mem_optional_iff.mp hw with hw | hw
    · simp at hw
    · obtain ⟨u, v, hu, -, he⟩ := Grammar.mem_anyOf_mul_iff.mp hw
      obtain ⟨rfl, -⟩ := List.cons.inj he
      exact hu
  empty _ _ := rfl

theorem recognizes_nullTest (n : Nat) :
    Recognizes n (run [nullTest]) (Grammar.optional (Grammar.keyword .NOT) * Grammar.keyword .NULL)
      ⟨among [.keyword .NOT, .keyword .NULL], among [], false⟩ := by
  have negative := lead (among [.keyword .NOT]) .nullAfterIs
    (recognizes_keyword n .nullAfterIsNot .NULL)
  have positive := lead (among [.keyword .NULL]) .nullAfterIs (done (n := n))
  have both := choose negative positive nofun (by decide)
  rw [mul_one] at both
  rw [run_nullTest, Grammar.optional_mul, add_comm]
  exact both.pred.fits (by decide)

section
variable {n : Nat}
variable (h : ∀ missing,
  Recognizes n (run [expression missing]) Grammar.expression expressionProfile)
include h

/-! ### Primaries -/

theorem recognizes_moreArguments :
    Recognizes n (run [moreArguments]) (Grammar.mark .comma * Grammar.expression)∗
      ⟨among [.punctuation .comma],
        fun t => among [.punctuation .comma] t || expressionProfile.extend t, true⟩ :=
  (repeated (takes_takeOne (among [.punctuation .comma])) (h .argumentAfterComma)
    run_moreArguments (by decide)).pred

theorem recognizes_arguments :
    Recognizes n (run [arguments])
      (Grammar.argumentsOf Grammar.expression * Grammar.mark .rightParen)
      ⟨fun t => expressionProfile.first t || among [.punctuation .rightParen] t, among [],
        false⟩ := by
  have close := recognizes_mark n .argumentsClose .rightParen
  have none := lead (among [.punctuation .rightParen]) .argument (done (n := n))
  have all := (lead (among [.operator .star]) .argument close).pred
  have some := (h .argument).cons ((recognizes_moreArguments h).cons close (by decide)) (by decide)
  have given := choose_avoiding all some nofun
  have whole := choose none.pred given nofun (by decide)
  have language : Grammar.argumentsOf Grammar.expression * Grammar.mark .rightParen =
      Grammar.anyOf (among [.punctuation .rightParen]) * 1 +
        (Grammar.anyOf (among [.operator .star]) * Grammar.mark .rightParen +
          Grammar.avoiding (among [.operator .star]) (Grammar.expression *
            ((Grammar.mark .comma * Grammar.expression)∗ * Grammar.mark .rightParen))) := by
    have nonempty : [] ∉ Grammar.list Grammar.expression := by
      simp [Grammar.list, Grammar.nil_notMem_expression]
    rw [← mul_assoc, ← Grammar.list, Grammar.avoiding_mul nonempty, mul_one,
      Grammar.argumentsOf, Grammar.optional_mul, add_mul]
    rfl
  rw [run_arguments, language]
  exact whole.fits (by decide)

theorem recognizes_applied :
    Recognizes n (run [applied])
      (Grammar.parenthesized (Grammar.argumentsOf Grammar.expression) + Grammar.qualifier)
      ⟨primaryProfile.extend, primaryProfile.extend, true⟩ := by
  have args := (lead (among [.punctuation .leftParen]) .argument (recognizes_arguments h)).pred
  have qual := (maybe (among [.punctuation .dot]) (recognizes_qualified n)).pred
  have both := choose args qual nofun (by decide)
  rw [← mul_assoc] at both
  rw [run_applied]
  exact both.fits (by decide)

theorem recognizes_logical (missing : SyntaxError) :
    Recognizes n (run (logical missing)) (Grammar.conditionOf Grammar.expression)
      conditionProfile := by
  have more := repeated (takes_takeOne (among [.keyword .AND, .keyword .OR]))
    (h .conditionOperand) run_moreConditions (by decide)
  rw [Grammar.anyOf_among_cons] at more
  exact ((h missing).cons more.pred (by decide)).fits (by decide)

theorem recognizes_primary (missing : SyntaxError) :
    Recognizes (n + 1) (run [primary missing]) (Grammar.primaryOf Grammar.expression)
      primaryProfile := by
  have grouped := lead (among [.punctuation .leftParen]) missing
    ((recognizes_logical h .groupedExpression).append
      (recognizes_mark n .groupedClose .rightParen) (by decide))
  have literal := lead (among [.number, .string, .keyword .NULL, .operator .star]) missing
    (done (n := n))
  have named := lead isIdentifier missing (recognizes_applied h)
  have unnamed := choose grouped literal nofun (by decide)
  have whole := choose named unnamed nofun (by decide)
  have language : Grammar.primaryOf Grammar.expression =
      Grammar.anyOf isIdentifier * (Grammar.parenthesized
          (Grammar.argumentsOf Grammar.expression) + Grammar.qualifier) +
        (Grammar.anyOf (among [.punctuation .leftParen]) *
            (Grammar.conditionOf Grammar.expression * Grammar.mark .rightParen) +
          Grammar.anyOf (among [.number, .string, .keyword .NULL, .operator .star]) * 1) := by
    simp only [Grammar.primaryOf, Grammar.parenthesized, Grammar.mark, Grammar.number,
      Grammar.string, Grammar.keyword, Grammar.star, Grammar.operator, Grammar.anyOf_among_cons,
      mul_add, mul_one, mul_assoc]
    abel
  rw [run_primary, language]
  exact whole.fits (by decide)

/-! ### Suffixes -/

/-- The predicates that may be negated. -/
def predicates : Language Terminal :=
  Grammar.keyword .IN * (Grammar.row + Grammar.parenthesized Grammar.row) +
    (Grammar.keyword .LIKE * Grammar.expression +
      Grammar.keyword .BETWEEN * (Grammar.expression * (Grammar.keyword .AND * Grammar.expression)))

theorem recognizes_predicate :
    Recognizes (n + 1) predicate predicates
      ⟨among predicateWords, expressionProfile.extend, false⟩ := by
  have nested := ((recognizes_row n).append (recognizes_mark n .listAfterInClose .rightParen)
    (by decide)).fits (q := ⟨among [.punctuation .leftParen], among [], false⟩) (by decide)
  have values := lead (among [.punctuation .leftParen]) .listAfterIn
    (choose nested (recognizes_rowBody n) nofun (by decide))
  have language : Grammar.row + Grammar.parenthesized Grammar.row =
      Grammar.anyOf (among [.punctuation .leftParen]) *
        (Grammar.row * Grammar.mark .rightParen +
          Grammar.list Grammar.value * Grammar.mark .rightParen) := by
    rw [mul_add, add_comm, ← mul_assoc, ← mul_assoc]
    rfl
  rw [← run_listAfterIn, ← language] at values
  have within := lead (among [.keyword .IN]) .operand values.pred
  have alike := lead (among [.keyword .LIKE]) .operand (h .operand)
  have between := lead (among [.keyword .BETWEEN]) .operand
    ((h .lowerBound).cons ((recognizes_keyword n .boundsAnd .AND).cons (h .upperBound)
      (by decide)) (by decide))
  have other := choose alike between nofun (by decide)
  have whole := choose within other nofun (by decide)
  exact whole.fits (by decide)

theorem recognizes_suffix :
    Recognizes (n + 1) (run [suffix])
      (Grammar.optional (Grammar.suffixOf Grammar.expression)) suffixProfile := by
  have positive := recognizes_predicate h
  have negative := (recognizes_negated positive rfl rfl).pred
  have plain := choose positive (done (n := n + 1)) nofun (by decide)
  have computed := lead Terminal.isOperator .operand (h .operand)
  have tested := lead (among [.keyword .IS]) .operand (recognizes_nullTest n)
  have whole := choose negative (choose tested (choose computed plain
    nofun (by decide)) nofun (by decide))
    (fun _ => Or.inr (Or.inr (Or.inr rfl))) (by decide)
  have language : Grammar.optional (Grammar.keyword .NOT * predicates) +
      (Grammar.keyword .IS * (Grammar.optional (Grammar.keyword .NOT) * Grammar.keyword .NULL) +
        (Grammar.anyOf Terminal.isOperator * Grammar.expression + (predicates + 1))) =
      Grammar.optional (Grammar.suffixOf Grammar.expression) := by
    rw [add_comm predicates 1, ← Grammar.optional_eq, Grammar.add_optional, Grammar.add_optional,
      Grammar.optional_add_optional]
    congr 1
    simp only [Grammar.suffixOf, predicates, Grammar.optional_mul, add_mul, mul_add, mul_assoc]
    abel
  rw [run_suffix, ← language]
  exact whole.fits (by decide)

/-! ### Expressions -/

theorem recognizes_expression_succ (missing : SyntaxError) :
    Recognizes (n + 1) (run [expression missing]) Grammar.expression expressionProfile := by
  have unsigned := (recognizes_primary h missing).cons (recognizes_suffix h) (by decide)
  have signed := lead (among [.operator .plus, .operator .minus]) missing unsigned.pred
  have both := choose signed unsigned nofun (by decide)
  have language : Grammar.expression =
      Grammar.anyOf (among [.operator .plus, .operator .minus]) *
          (Grammar.primaryOf Grammar.expression *
            Grammar.optional (Grammar.suffixOf Grammar.expression)) +
        Grammar.primaryOf Grammar.expression *
          Grammar.optional (Grammar.suffixOf Grammar.expression) := by
    conv_lhs => rw [← Grammar.expression_eq]
    rw [Grammar.expressionOf, mul_assoc, Grammar.optional_mul, add_comm, Grammar.sign,
      Grammar.anyOf_among_cons]
    rfl
  rw [run_expression, language]
  exact both.fits (by decide)

end

/-- **Expressions are recognized**, whatever error is reported where there is none. -/
theorem recognizes_expression (n : Nat) (missing : SyntaxError) :
    Recognizes n (run [expression missing]) Grammar.expression expressionProfile := by
  induction n generalizing missing with
  | zero => exact zero ..
  | succ n ih => exact recognizes_expression_succ ih missing

theorem recognizes_condition (n : Nat) :
    Recognizes n (run condition) Grammar.condition conditionProfile :=
  recognizes_logical (recognizes_expression n) .condition

end SqlChecker.Goal
