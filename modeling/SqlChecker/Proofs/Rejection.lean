import SqlChecker.Lexer
import SqlChecker.Proofs.ViablePrefix

/-! # Where a statement is rejected

A statement breaks off in front of the tokens that are left over (`Verdict.eq_rejected_iff`).  A
step sees the next three terminals and no others, and those in front of them have been taken.  So
what comes behind the third token from the place of an error has no part in it
(`ofTokens_eq_rejected_of_take`).
-/
namespace SqlChecker
namespace Goal

variable {goals : List Goal} {ts ts' taken rest rest' : List Terminal} {e : SyntaxError}

/-- A move sees the next three terminals. -/
theorem moveBefore_congr (goals : List Goal) (h : ts'.take 3 = ts.take 3) :
    moveBefore goals ts' = moveBefore goals ts := by
  have same {i : Nat} (hi : i < 3) : ts'[i]? = ts[i]? := by
    rw [← List.getElem?_take_of_lt hi, h, List.getElem?_take_of_lt hi]
  rw [moveBefore, moveBefore, same (by decide), same (by decide), same (by decide)]

/-- What a move takes is not left over where matching breaks off. -/
theorem le_length_of_run_drop {count : Nat} {next : List Goal}
    (hm : moveBefore goals (taken ++ rest) = .take count next)
    (h : run next ((taken ++ rest).drop count) = .rejected e rest) : count ≤ taken.length := by
  obtain ⟨taken', -, hdrop, -, -⟩ := exists_left?_of_run h
  obtain ⟨t, front, back, hts, rfl⟩ := exists_append_of_moveBefore hm
  have htotal := congrArg List.length hts
  have hleft := congrArg List.length hdrop
  simp only [List.length_append, List.length_drop] at htotal hleft
  omega

/-- **Matching breaks off at the same place** before other terminals, if the next three there are
the same.  The induction is on the moves of the first run. -/
theorem run_append_congr (h : run goals (taken ++ rest) = .rejected e rest)
    (hsame : rest'.take 3 = rest.take 3) : run goals (taken ++ rest') = .rejected e rest' := by
  have window (taken : List Terminal) : (taken ++ rest').take 3 = (taken ++ rest).take 3 := by
    have hshorter := congrArg (List.take (3 - taken.length)) hsame
    rw [List.take_take, List.take_take, Nat.min_eq_left (Nat.sub_le ..)] at hshorter
    rw [List.take_append, List.take_append, hshorter]
  generalize hts : taken ++ rest = ts at h
  fun_induction run goals ts generalizing taken with
  | case1 goals ts hm => cases h
  | case2 goals ts e' hm =>
    obtain ⟨rfl, rfl⟩ := Outcome.rejected.inj h
    obtain rfl := List.append_left_eq_self.mp hts
    exact run_of_fail ((moveBefore_congr goals hsame).trans hm)
  | case3 goals ts count next hm ih =>
    subst hts
    have hle := le_length_of_run_drop hm h
    have hmove := (moveBefore_congr goals (window taken)).trans hm
    rw [run_of_take hmove, List.drop_append_of_le_length hle]
    exact ih (List.drop_append_of_le_length hle).symm h

end Goal

/-! ### Tokens -/

variable {tokens tokens' : List Token} {position : Nat} {problem : Diagnostic}

/-- **Tokens are rejected in front of those that are left over.** -/
theorem Verdict.eq_rejected_iff (hf : ∀ t ∈ tokens, t.fault? = none) :
    ofTokens tokens = .rejected position problem ↔ ∃ e before after, tokens = before ++ after ∧
      Goal.run [.statement] (tokens.map Token.terminal) = .rejected e (after.map Token.terminal) ∧
      position = before.length ∧ problem = syntaxProblem tokens before.length e := by
  constructor
  · intro h
    cases hr : Goal.run [.statement] (tokens.map Token.terminal) with
    | accepted rest =>
      rw [ofTokens_eq_ofStatement hf, ofStatement, hr] at h
      cases h
    | rejected e rest =>
      rw [ofTokens_of_rejected hf hr] at h
      obtain ⟨rfl, rfl⟩ := Verdict.rejected.inj h
      obtain ⟨taken, -, hts, -, -⟩ := Goal.exists_left?_of_run hr
      obtain ⟨before, after, rfl, -, rfl⟩ := List.map_eq_append_iff.mp hts
      have hlength : (before ++ after).length - (after.map Token.terminal).length =
          before.length := by
        rw [List.length_append, List.length_map, Nat.add_sub_cancel]
      exact ⟨e, before, after, rfl, rfl, hlength, by rw [hlength]⟩
  · rintro ⟨e, before, after, rfl, hr, rfl, rfl⟩
    rw [ofTokens_of_rejected hf hr, List.length_append, List.length_map, Nat.add_sub_cancel]

/-- A list with the same front is the front part with something like the rest behind it. -/
theorem exists_append_of_take_eq {before after : List Token} {n : Nat}
    (h : tokens.take (before.length + n) = (before ++ after).take (before.length + n)) :
    ∃ after', tokens = before ++ after' ∧ after'.take n = after.take n := by
  have hbefore : tokens.take before.length = before := by
    have hshorter := congrArg (List.take before.length) h
    rwa [List.take_take, List.take_take, Nat.min_eq_left (Nat.le_add_right ..),
      List.take_left] at hshorter
  refine ⟨tokens.drop before.length, ?_, ?_⟩
  · conv_lhs => rw [← List.take_append_drop before.length tokens, hbefore]
  · rwa [List.take_add, List.take_length_add_append, hbefore, List.append_cancel_left_eq] at h

/-- **An error is decided by the three tokens from its place on.**  Tokens that are rejected in
front of one of them are rejected there, and with the same problem, whatever comes behind these
three. -/
theorem ofTokens_eq_rejected_of_take (hf : ∀ t ∈ tokens, t.fault? = none)
    (hf' : ∀ t ∈ tokens', t.fault? = none)
    (h : Verdict.ofTokens tokens = .rejected position problem)
    (hposition : position < tokens.length)
    (hsame : tokens'.take (position + 3) = tokens.take (position + 3)) :
    Verdict.ofTokens tokens' = .rejected position problem ∧ parse tokens' = parse tokens ∧
      (parse tokens').errors = [problem] := by
  obtain ⟨e, before, after, rfl, hr, rfl, rfl⟩ := (Verdict.eq_rejected_iff hf).mp h
  obtain ⟨after', rfl, hthree⟩ := exists_append_of_take_eq hsame
  rw [List.map_append] at hr
  have hr' : Goal.run [.statement] ((before ++ after').map Token.terminal) =
      .rejected e (after'.map Token.terminal) := by
    rw [List.map_append]
    refine Goal.run_append_congr hr ?_
    rw [← List.map_take, ← List.map_take, hthree]
  -- The problem is told of the first token that is left over, which is the same in both lists.
  have hproblem : Verdict.syntaxProblem (before ++ after') before.length e =
      Verdict.syntaxProblem (before ++ after) before.length e := by
    cases after with
    | nil => simp at hposition
    | cons t after =>
      cases after' with
      | nil => simp at hthree
      | cons t' after' =>
        obtain rfl : t' = t := by simpa using congrArg List.head? hthree
        have within : before.length < (before ++ [t']).length := by simp
        rw [List.append_cons before t' after', List.append_cons before t' after,
          Verdict.syntaxProblem_append within, Verdict.syntaxProblem_append within]
  have hverdict : Verdict.ofTokens (before ++ after') =
      .rejected before.length (Verdict.syntaxProblem (before ++ after) before.length e) :=
    (Verdict.eq_rejected_iff hf').mpr ⟨e, before, after', rfl, hr', rfl, hproblem.symm⟩
  refine ⟨hverdict, ?_, ?_⟩
  · rw [parse, parse, hverdict, h]
  · rw [parse, hverdict]
    rfl

/-- A join that is not complete is an error at its first word, whatever comes after the third. -/
theorem ofTokens_incompleteJoin :
    (∀ t ∈ tokenize "SELECT a FROM t LEFT OUTER x y".toList, t.fault? = none) ∧
    (∀ t ∈ tokenize "SELECT a FROM t LEFT OUTER x; (".toList, t.fault? = none) ∧
    Verdict.ofTokens (tokenize "SELECT a FROM t LEFT OUTER x y".toList) =
      .rejected 4 ⟨"Expected ';' at the end of SQL statement", 1, 5, "", some 16⟩ ∧
    4 < (tokenize "SELECT a FROM t LEFT OUTER x y".toList).length ∧
    (tokenize "SELECT a FROM t LEFT OUTER x; (".toList).take (4 + 3) =
      (tokenize "SELECT a FROM t LEFT OUTER x y".toList).take (4 + 3) ∧
    Verdict.ofTokens (tokenize "SELECT a FROM t LEFT OUTER x; (".toList) =
      .rejected 4 ⟨"Expected ';' at the end of SQL statement", 1, 5, "", some 16⟩ := by
  have hf : ∀ t ∈ tokenize "SELECT a FROM t LEFT OUTER x y".toList, t.fault? = none := by
    decide +kernel
  have hf' : ∀ t ∈ tokenize "SELECT a FROM t LEFT OUTER x; (".toList, t.fault? = none := by
    decide +kernel
  have h : Verdict.ofTokens (tokenize "SELECT a FROM t LEFT OUTER x y".toList) =
      .rejected 4 ⟨"Expected ';' at the end of SQL statement", 1, 5, "", some 16⟩ := by
    decide +kernel
  have hposition : 4 < (tokenize "SELECT a FROM t LEFT OUTER x y".toList).length := by
    decide +kernel
  have hsame : (tokenize "SELECT a FROM t LEFT OUTER x; (".toList).take (4 + 3) =
      (tokenize "SELECT a FROM t LEFT OUTER x y".toList).take (4 + 3) := by
    decide +kernel
  exact ⟨hf, hf', h, hposition, hsame, (ofTokens_eq_rejected_of_take hf hf' h hposition hsame).1⟩

/-! The third token counts: behind the same two the join may be complete. -/
example : (tokenize "SELECT a FROM t LEFT OUTER JOIN u ON v".toList).take (4 + 2) =
      (tokenize "SELECT a FROM t LEFT OUTER x y".toList).take (4 + 2) ∧
    (parse (tokenize "SELECT a FROM t LEFT OUTER JOIN u ON v".toList)).isValid = true := by
  decide +kernel

end SqlChecker
