import SqlChecker.Lexer
import SqlChecker.Proofs.Matching.Completion
import SqlChecker.Proofs.Verdict

/-! # Viable prefixes

A statement is rejected as soon as no continuation could be accepted, and not later: the terminals
in front of the place where matching breaks off are the beginning of a statement.  What matching
looks for behind the next terminal does not get in the way, since a step that sees something there
also takes it.
-/
namespace SqlChecker
namespace Goal
open Step

variable {g : Goal} {goals next : List Goal} {first second second' third third' : Option Terminal}
variable {count : Nat} {t : Terminal} {ts rest rest' : List Terminal} {e : SyntaxError}

/-! ### Steps that stay within a prefix -/

theorem predicateAfter?_eq_none (h : t ∉ soughtBehind) : predicateAfter? t = none := by
  unfold predicateAfter?
  split <;> first | rfl | exact absurd (by decide) h

/-- A step that takes no more than the first terminal does the same before another second one that
is not looked for. -/
theorem step_congr_second (hs : ∀ t ∈ second', t ∉ soughtBehind)
    (hcount : ∀ count next, g.step first second third = .take count next → count ≤ 1)
    (hopen : g = listAfterIn → (second = some (.punctuation .leftParen) ↔
      second' = some (.punctuation .leftParen))) :
    g.step first second' third' = g.step first second third := by
  have notJoin : second' ≠ some (.keyword .JOIN) := by
    rintro rfl
    exact hs _ rfl (by decide)
  have notOuter : second' ≠ some (.keyword .OUTER) := by
    rintro rfl
    exact hs _ rfl (by decide)
  have notPredicate : second'.bind predicateAfter? = none := by
    cases second' with
    | none => rfl
    | some t => exact predicateAfter?_eq_none (hs t rfl)
  -- A second terminal that is looked for would be taken, and there would be two.
  cases g with
  | suffix =>
    simp only [step, stepSuffix] at hcount ⊢
    grind
  | joins =>
    simp only [step, stepJoins] at hcount ⊢
    grind
  | listAfterIn =>
    simp only [step, isMark, hopen rfl]
  | _ => rfl

/-- A step that takes no more than the first two terminals does the same before another third one
that is not looked for. -/
theorem step_congr_third (ht : ∀ t ∈ third', t ∉ soughtBehind)
    (hcount : ∀ count next, g.step first second third = .take count next → count ≤ 2) :
    g.step first second third' = g.step first second third := by
  have notJoin : third' ≠ some (.keyword .JOIN) := by
    rintro rfl
    exact ht _ rfl (by decide)
  cases g with
  | joins =>
    simp only [step, stepJoins] at hcount ⊢
    grind
  | _ => rfl

/-- **A step that stays within a prefix** does the same before other terminals behind the prefix, if
the first of them is not looked for.  A parenthesis is looked for by a single goal. -/
theorem stepBefore_append_congr (hr' : ∀ t ∈ rest'.head?, t ∉ soughtBehind)
    (hcount : ∀ count next, g.stepBefore (t :: ts ++ rest) = .take count next →
      count ≤ (t :: ts).length)
    (hopen : g = listAfterIn → ts = [] → (rest.head? = some (.punctuation .leftParen) ↔
      rest'.head? = some (.punctuation .leftParen))) :
    g.stepBefore (t :: ts ++ rest') = g.stepBefore (t :: ts ++ rest) := by
  rw [List.head?_eq_getElem?] at hr'
  rcases ts with - | ⟨u, - | ⟨v, ts⟩⟩
  · rw [List.head?_eq_getElem?, List.head?_eq_getElem?] at hopen
    exact step_congr_second hr' hcount fun hg => hopen hg rfl
  · exact step_congr_third hr' hcount
  · rfl

/-- **A move that stays within a prefix** does the same before other terminals behind it.  What the
goal that looks for a parenthesis has seen is told from the goals that it leaves. -/
theorem moveBefore_append_congr (hr' : ∀ t ∈ rest'.head?, t ∉ soughtBehind)
    (h : moveBefore goals (t :: ts ++ rest) = .take count next) (hcount : count ≤ (t :: ts).length)
    (hopen : ts = [] → next.head? = some (mark .leftParen .valuesOpen) →
      rest.head? ≠ some (.punctuation .leftParen))
    (hplain : ts = [] → next.head? = some (value .value) →
      rest'.head? ≠ some (.punctuation .leftParen)) :
    moveBefore goals (t :: ts ++ rest') = .take count next := by
  induction goals with
  | nil => cases h
  | cons g goals ih =>
    rw [moveBefore_cons] at h ⊢
    have same : g.stepBefore (t :: ts ++ rest') = g.stepBefore (t :: ts ++ rest) := by
      refine stepBefore_append_congr hr' ?_ ?_
      · intro count' next' hs
        rw [hs] at h
        obtain ⟨rfl, -⟩ := Move.take.inj h
        exact hcount
      · rintro rfl rfl
        rw [List.cons_append, List.nil_append, stepBefore_cons, step, ← List.head?_eq_getElem?] at h
        split_ifs at h with hfirst hsecond
        · obtain ⟨-, rfl⟩ := Move.take.inj h
          exact absurd hsecond (hopen rfl rfl)
        · obtain ⟨-, rfl⟩ := Move.take.inj h
          exact iff_of_false hsecond (hplain rfl rfl)
    rw [same]
    split at h
    · cases h
    · exact ih h
    · exact h

/-! ### Where matching breaks off -/

/-- What a move takes is in front of all terminals. -/
theorem exists_append_of_moveBefore (h : moveBefore goals ts = .take count next) :
    ∃ t front back, ts = t :: front ++ back ∧ count = (t :: front).length := by
  obtain ⟨hne, hpos⟩ := move_eq_take h
  cases ts with
  | nil => exact absurd rfl hne
  | cons t ts =>
    have hmove : moveBefore goals (t :: ts ++ []) = .take count next := by rwa [List.append_nil]
    have hle : count ≤ (t :: ts).length := le_length_of_moveBefore follows_nil hmove
    obtain ⟨k, rfl⟩ := Nat.exists_eq_succ_of_ne_zero hpos.ne'
    refine ⟨t, ts.take k, ts.drop k, ?_, ?_⟩
    · rw [List.cons_append, List.take_append_drop]
    · rw [List.length_cons, List.length_take, Nat.min_eq_left (Nat.le_of_succ_le_succ hle)]

/-- Terminals that are all taken leave the goals that the last move leaves. -/
theorem eq_of_left?_nil (h : left? goals [] = some next) : next = goals := by
  rw [left?_nil] at h
  exact (Option.some.inj h).symm

/-- **Matching breaks off where the goals that are left are given up**, at the terminals that are
left. -/
theorem exists_left?_of_run (h : run goals ts = .rejected e rest) :
    ∃ taken next, ts = taken ++ rest ∧ left? goals taken = some next ∧
      moveBefore next rest = .fail e := by
  fun_induction run goals ts with
  | case1 goals ts hm => cases h
  | case2 goals ts e' hm =>
    obtain ⟨rfl, rfl⟩ := Outcome.rejected.inj h
    exact ⟨[], goals, rfl, left?_nil goals, hm⟩
  | case3 goals ts count next' hm ih =>
    obtain ⟨t, front, back, rfl, rfl⟩ := exists_append_of_moveBefore hm
    rw [List.drop_left] at h ih
    obtain ⟨taken, next, rfl, hleft, hfail⟩ := ih h
    refine ⟨t :: front ++ taken, next, (List.append_assoc ..).symm, ?_, hfail⟩
    rw [← List.append_assoc, List.cons_append] at hm
    -- A parenthesis that the last move has seen would be taken, not left.
    have hmove : moveBefore goals (t :: (front ++ taken) ++ []) =
        .take (t :: front).length next' := by
      refine moveBefore_append_congr (fun _ hu => absurd hu (Option.not_mem_none _)) hm ?_ ?_ ?_
      · rw [List.length_cons, List.length_cons, List.length_append]
        omega
      · intro hnil hhead hopen
        obtain ⟨rfl, rfl⟩ := List.append_eq_nil_iff.mp hnil
        obtain rfl := eq_of_left?_nil hleft
        obtain ⟨below, rfl⟩ := List.head?_eq_some_iff.mp hhead
        obtain ⟨rest, rfl⟩ := List.head?_eq_some_iff.mp hopen
        cases hfail
      · intro _ _ hopen
        cases hopen
    rw [List.append_nil] at hmove
    rw [List.cons_append, left?_of_take hmove, ← List.cons_append, List.drop_left]
    exact hleft

/-- **Matching goes on with the goals that are left**, before what completes them. -/
theorem run_append_completion (hg : isOrderly goals = true) (h : left? goals ts = some next) :
    run goals (ts ++ completion next) = run next (completion next) := by
  have hnext := isOrderly_of_left? hg h
  fun_induction left? goals ts with
  | case1 goals =>
    obtain rfl := Option.some.inj h
    rfl
  | case2 goals ts hne count next' hm ih =>
    obtain ⟨t, front, back, rfl, rfl⟩ := exists_append_of_moveBefore hm
    rw [List.drop_left] at h ih
    have hmove : moveBefore goals (t :: (front ++ back) ++ completion next) =
        .take (t :: front).length next' := by
      rw [List.cons_append, ← List.append_nil (t :: (front ++ back))] at hm
      refine moveBefore_append_congr ?_ hm ?_ ?_ ?_
      · intro u hu hsought
        exact notMem_of_mem_completion hnext (List.mem_of_mem_head? hu)
          (List.mem_cons_of_mem _ hsought)
      · rw [List.length_cons, List.length_cons, List.length_append]
        omega
      · intro _ _ hopen
        cases hopen
      -- Where the first value of a row is left, a number completes it.
      · intro hnil hhead
        obtain ⟨rfl, rfl⟩ := List.append_eq_nil_iff.mp hnil
        obtain rfl := eq_of_left?_nil h
        obtain ⟨below, rfl⟩ := List.head?_eq_some_iff.mp hhead
        intro hopen
        cases hopen
    rw [← List.cons_append, List.append_assoc] at hmove
    rw [List.append_assoc, run_of_take hmove, List.drop_left]
    exact ih (isOrderly_of_moveBefore hg hm) h
  | case3 => cases h

/-- **The terminals in front of an error begin a statement.** -/
theorem exists_run_append_of_run (hg : isOrderly goals = true)
    (h : run goals ts = .rejected e rest) :
    ∃ taken more, ts = taken ++ rest ∧ .fault ∉ more ∧
      run goals (taken ++ more) = .accepted [] := by
  obtain ⟨taken, next, hts, hleft, -⟩ := exists_left?_of_run h
  have hnext := isOrderly_of_left? hg hleft
  refine ⟨taken, completion next, hts, fun hfault => ?_, ?_⟩
  · exact notMem_of_mem_completion hnext hfault List.mem_cons_self
  · rw [run_append_completion hg hleft, run_completion hnext]

end Goal

/-! ### Tokens -/

/-- Some token that the grammar sees as this terminal.  Its text matters only if it is a word. -/
def Terminal.token (t : Terminal) : Token :=
  let (kind, value) : TokenKind × String := match t with
    | keyword k => (.keyword k, k.spelling)
    | identifier .no => (.identifier, "NO")
    | identifier .action => (.identifier, "ACTION")
    | identifier .other => (.identifier, "x")
    | number => (.number, "0")
    | string => (.string, "")
    | operator op => (.operator op, "")
    | punctuation p => (.punctuation p, "")
    | fault => (.fault "", "")
  ⟨kind, value, 1, 1, ⟨0, 0⟩⟩

theorem Terminal.terminal_token (t : Terminal) : t.token.terminal = t := by
  cases t with
  | identifier w => cases w <;> rfl
  | _ => rfl

theorem Terminal.fault?_token {t : Terminal} (h : t ≠ .fault) : t.token.fault? = none := by
  cases t with
  | identifier w => cases w <;> rfl
  | fault => exact absurd rfl h
  | _ => rfl

/-- Terminals that can be there are those of some tokens. -/
theorem exists_tokens {ts : List Terminal} (h : .fault ∉ ts) :
    ∃ tokens : List Token, tokens.map Token.terminal = ts ∧ ∀ t ∈ tokens, t.fault? = none := by
  refine ⟨ts.map Terminal.token, ?_, fun t ht => ?_⟩
  · rw [List.map_map]
    exact (List.map_congr_left fun t _ => Terminal.terminal_token t).trans (List.map_id ts)
  · obtain ⟨u, hu, rfl⟩ := List.mem_map.mp ht
    exact Terminal.fault?_token fun hfault => h (hfault ▸ hu)

/-- **An error is never reported late.**  Tokens without a fault that are not valid break off at a
place, and those in front of it can be continued to a valid statement.  So what breaks off at the
end is an incomplete statement. -/
theorem exists_isValid_take_append {tokens : List Token} (hf : ∀ t ∈ tokens, t.fault? = none)
    (h : (parse tokens).isValid = false) :
    ∃ position problem, Verdict.ofTokens tokens = .rejected position problem ∧
      position ≤ tokens.length ∧ ∃ more : List Token, (∀ t ∈ more, t.fault? = none) ∧
        (parse (tokens.take position ++ more)).isValid = true ∧
        (position = tokens.length → (parse (tokens ++ more)).isValid = true) := by
  cases hr : Goal.run [.statement] (tokens.map Token.terminal) with
  | accepted rest =>
    rw [parse_of_accepted hf hr] at h
    cases h
  | rejected e rest =>
    obtain ⟨taken, left, hts, hfault, haccepted⟩ := Goal.exists_run_append_of_run rfl hr
    obtain ⟨more, rfl, hmore⟩ := exists_tokens hfault
    have hlength : tokens.length = taken.length + rest.length := by
      simpa using congrArg List.length hts
    have htaken : (tokens.take (tokens.length - rest.length)).map Token.terminal = taken := by
      rw [List.map_take, hts, hlength, Nat.add_sub_cancel, List.take_left]
    have hvalid : (parse (tokens.take (tokens.length - rest.length) ++ more)).isValid = true := by
      refine isValid_parse_iff.mpr ⟨fun t ht => ?_, [], ?_⟩
      · rcases List.mem_append.mp ht with ht | ht
        · exact hf t (List.mem_of_mem_take ht)
        · exact hmore t ht
      · rw [List.map_append, htaken, haccepted]
    refine ⟨_, _, Verdict.ofTokens_of_rejected hf hr, Nat.sub_le .., more, hmore, hvalid,
      fun hend => ?_⟩
    rwa [hend, List.take_length] at hvalid

/-- `SELECT a IN (1,` wants another value. -/
theorem exists_isValid_take_append_select :
    (∀ t ∈ tokenize "SELECT a IN (1,".toList, t.fault? = none) ∧
    (parse (tokenize "SELECT a IN (1,".toList)).isValid = false ∧
    ∃ position problem,
      Verdict.ofTokens (tokenize "SELECT a IN (1,".toList) = .rejected position problem ∧
      position ≤ (tokenize "SELECT a IN (1,".toList).length ∧
      ∃ more : List Token, (∀ t ∈ more, t.fault? = none) ∧
        (parse ((tokenize "SELECT a IN (1,".toList).take position ++ more)).isValid = true ∧
        (position = (tokenize "SELECT a IN (1,".toList).length →
          (parse (tokenize "SELECT a IN (1,".toList ++ more)).isValid = true) := by
  have hf : ∀ t ∈ tokenize "SELECT a IN (1,".toList, t.fault? = none := by decide +kernel
  have h : (parse (tokenize "SELECT a IN (1,".toList)).isValid = false := by decide +kernel
  exact ⟨hf, h, exists_isValid_take_append hf h⟩

end SqlChecker
