import Mathlib.Tactic.Abel
import SqlChecker.Proofs.Matching.Goals
import SqlChecker.Proofs.Recognition.Basic

/-! # Names and values are recognized

The parts of a statement that hold no expression: single terminals, names, further names and rows of
values.
-/
namespace SqlChecker.Goal
open Matcher Terminal RecognizesBefore Computability

variable (n : Nat) (missing : SyntaxError)

theorem recognizes_expect (wanted : List Terminal) :
    Recognizes n (run [expect wanted missing]) (Grammar.anyOf (among wanted))
      ⟨among wanted, among [], false⟩ := by
  rw [run_expect, ← mul_one (Grammar.anyOf _)]
  exact (lead _ _ done).pred

theorem recognizes_optional (wanted : List Terminal) :
    Recognizes n (run [optional wanted]) (Grammar.optional (Grammar.anyOf (among wanted)))
      ⟨among wanted, among wanted, true⟩ := by
  rw [run_optional, ← mul_one (Grammar.anyOf _)]
  refine (maybe _ done).pred.within ⟨fun _ => id, fun t ht => ?_, id⟩
  simpa using ht

theorem recognizes_keyword (k : Keyword) :
    Recognizes n (run [keyword k missing]) (Grammar.keyword k)
      ⟨among [.keyword k], among [], false⟩ :=
  recognizes_expect n missing _

theorem recognizes_mark (p : Punctuation) :
    Recognizes n (run [mark p missing]) (Grammar.mark p)
      ⟨among [.punctuation p], among [], false⟩ :=
  recognizes_expect n missing _

theorem recognizes_number :
    Recognizes n (run [number missing]) Grammar.number ⟨among [.number], among [], false⟩ :=
  recognizes_expect n missing _

/-! ### Names -/

theorem recognizes_qualified :
    Recognizes n (run [qualified]) (Grammar.anyOf isName + Grammar.star)
      ⟨fun t => isName t || among [.operator .star] t, among [], false⟩ := by
  rw [run_qualified, Grammar.star, Grammar.operator, ← Grammar.anyOf_or,
    ← mul_one (Grammar.anyOf _)]
  exact (lead _ _ done).pred

theorem recognizes_qualifier :
    Recognizes n (run [qualifier]) Grammar.qualifier
      ⟨among [.punctuation .dot], among [.punctuation .dot], true⟩ := by
  rw [run_qualifier]
  exact (maybe _ (recognizes_qualified n)).pred.fits (by decide)

theorem recognizes_name :
    Recognizes n (run [name missing]) Grammar.name
      ⟨isName, among [.punctuation .dot], false⟩ := by
  rw [run_name]
  exact (lead _ _ (recognizes_qualifier n)).pred

theorem recognizes_otherName :
    Recognizes n (run [otherName]) Grammar.otherName
      ⟨fun t => among [.keyword .AS] t || isIdentifier t,
        fun t => among [.keyword .AS, .punctuation .dot] t || isIdentifier t, true⟩ := by
  have named := lead (among [.keyword .AS]) .aliasName (recognizes_name n .aliasName)
  have bare := maybe isIdentifier (done (n := n))
  have both := choose named bare nofun (by decide)
  rw [mul_one, Grammar.add_optional] at both
  rw [run_otherName]
  exact both.pred.fits (by decide)

/-! ### Values -/

theorem recognizes_value :
    Recognizes n (run [value missing]) Grammar.value
      ⟨among [.operator .plus, .operator .minus, .number, .string, .keyword .NULL,
        .keyword .DEFAULT], among [], false⟩ := by
  have signed := lead (among [.operator .plus, .operator .minus]) missing
    (recognizes_number n missing)
  have plain := lead (among [.number, .string, .keyword .NULL, .keyword .DEFAULT]) missing
    (done (n := n))
  have both := choose signed plain nofun (by decide)
  have language : Grammar.value =
      Grammar.anyOf (among [.operator .plus, .operator .minus]) * Grammar.number +
        Grammar.anyOf (among [.number, .string, .keyword .NULL, .keyword .DEFAULT]) * 1 := by
    simp only [Grammar.value, Grammar.sign, Grammar.optional_mul, Grammar.operator, Grammar.number,
      Grammar.string, Grammar.keyword, Grammar.anyOf_among_cons, add_mul, mul_one]
    abel
  rw [run_value, language]
  exact both.pred.fits (by decide)

theorem recognizes_moreValues :
    Recognizes n (run [moreValues]) (Grammar.mark .comma * Grammar.value)∗
      ⟨among [.punctuation .comma], among [.punctuation .comma], true⟩ := by
  have more := repeated (takes_takeOne (among [.punctuation .comma]))
    (recognizes_value n .valueAfterComma) run_moreValues (by decide)
  exact more.pred.fits (by decide)

theorem recognizes_rowBody :
    Recognizes n (run rowBody) (Grammar.list Grammar.value * Grammar.mark .rightParen)
      ⟨among [.operator .plus, .operator .minus, .number, .string, .keyword .NULL,
        .keyword .DEFAULT], among [], false⟩ := by
  have more := (recognizes_moreValues n).cons (recognizes_mark n .valuesClose .rightParen)
    (by decide)
  have body := (recognizes_value n .value).cons more (by decide)
  rw [← mul_assoc] at body
  exact body.fits (by decide)

theorem recognizes_row :
    Recognizes n (run row) Grammar.row ⟨among [.punctuation .leftParen], among [], false⟩ := by
  have body := (recognizes_mark n .valuesOpen .leftParen).cons (recognizes_rowBody n) (by decide)
  rw [← mul_assoc] at body
  exact body.fits (by decide)

end SqlChecker.Goal
