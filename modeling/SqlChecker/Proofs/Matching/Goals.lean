import SqlChecker.Proofs.Grammar.Basic
import SqlChecker.Proofs.Matching.Sequence

/-! # What each goal matches

Each goal of a query or a change of data, as a matcher of one of the sorts of
`SqlChecker.Proofs.Matching.Sequence`.  The equations hold of all terminals and of all errors; they
are what is used of `Goal.step` from here on.
-/
namespace SqlChecker.Goal
open Matcher Terminal Step

/-- Takes the words of a join, if there are all of them. -/
def takeJoin (ts : List Terminal) : Option (List Terminal) :=
  match stepJoins ts[0]? ts[1]? ts[2]? with
  | .take count _ => some (ts.drop count)
  | _ => none

/-- The words that name a predicate which may be negated. -/
def predicateWords : List Terminal := [.keyword .IN, .keyword .LIKE, .keyword .BETWEEN]

/-- `NOT` with the predicate after it, or nothing. -/
def negated (m : Matcher) : Matcher
  | [] => .accepted []
  | t :: ts =>
    if t = .keyword .NOT ∧ ts.head?.any (among predicateWords) then m ts else .accepted (t :: ts)

/-- Nothing before the end of a statement. -/
def unlessEnded (m : Matcher) (ts : List Terminal) : Outcome :=
  if endsStatement ts.head? then .accepted ts else m ts

/-- A goal that is begun by one terminal and left out before all others. -/
theorem run_eq_maybe_among {g : Goal} {t : Terminal} {body : List Goal}
    (h : ∀ first second third,
      g.step first second third = if first = some t then .take 1 body else .skip) :
    run [g] = maybe (among [t]) (run body) := by
  refine run_eq_maybe fun first second third => ?_
  rw [h]
  cases first <;> simp

variable (missing : SyntaxError)

/-! ### Terminals and names -/

theorem run_expect (wanted : List Terminal) :
    run [expect wanted missing] = lead (among wanted) missing .accepted := by
  rw [← run_nil]
  exact run_eq_lead fun _ _ _ => rfl

theorem run_optional (wanted : List Terminal) :
    run [optional wanted] = maybe (among wanted) .accepted := by
  rw [← run_nil]
  exact run_eq_maybe fun _ _ _ => rfl

theorem run_name : run [name missing] = lead isName missing (run [qualifier]) := by
  refine run_eq_lead fun first _ _ => ?_
  cases first with
  | none => rfl
  | some t => cases h : t.isName <;> simp [step, nameAfter?, begin?, h]

theorem run_qualifier : run [qualifier] = maybe (among [.punctuation .dot]) (run [qualified]) :=
  run_eq_maybe_among fun _ _ _ => rfl

theorem run_qualified :
    run [qualified] =
      lead (fun t => isName t || among [.operator .star] t) .qualifiedName .accepted := by
  rw [← run_nil]
  refine run_eq_lead fun first _ _ => ?_
  cases first <;> simp [step, among]

theorem run_otherName :
    run [otherName] =
      choose (among [.keyword .AS])
        (lead (among [.keyword .AS]) .aliasName (run [name .aliasName]))
        (maybe isIdentifier .accepted) := by
  funext ts
  rw [run_cons]
  cases ts with
  | nil => simp [step]
  | cons t ts =>
    by_cases has : t = .keyword .AS
    · simp [step, has]
    · by_cases ht : t.isIdentifier = true <;> simp [step, has, ht]

/-! ### Expressions -/

theorem primaryAfter?_eq (t : Terminal) :
    primaryAfter? t =
      if isIdentifier t then some [applied]
      else if t = .punctuation .leftParen then
        some (logical .groupedExpression ++ [mark .rightParen .groupedClose])
      else if among [.number, .string, .keyword .NULL, .operator .star] t then some []
      else none := by
  cases t with
  | keyword k => cases k <;> rfl
  | operator op => cases op <;> rfl
  | punctuation p => cases p <;> rfl
  | _ => rfl

theorem expressionAfter?_eq (t : Terminal) :
    expressionAfter? missing t =
      if among [.operator .plus, .operator .minus] t then some [primary missing, suffix]
      else (primaryAfter? t).map (· ++ [suffix]) := by
  cases t with
  | operator op => cases op <;> rfl
  | _ => rfl

theorem run_expression :
    run [expression missing] =
      choose (among [.operator .plus, .operator .minus])
        (lead (among [.operator .plus, .operator .minus]) missing (run [primary missing, suffix]))
        (run [primary missing, suffix]) := by
  funext ts
  rw [run_cons]
  cases ts with
  | nil => simp [step, begin?, run_cons]
  | cons t ts =>
    by_cases ht : t = .operator .plus ∨ t = .operator .minus
    · simp [step, expressionAfter?_eq, begin?, ht]
    · cases hp : primaryAfter? t <;>
        simp [step, expressionAfter?_eq, begin?, ht, hp, run_cons (primary missing)]

theorem run_primary :
    run [primary missing] =
      choose isIdentifier (lead isIdentifier missing (run [applied]))
        (choose (among [.punctuation .leftParen])
          (lead (among [.punctuation .leftParen]) missing
            (run (logical .groupedExpression ++ [mark .rightParen .groupedClose])))
          (lead (among [.number, .string, .keyword .NULL, .operator .star]) missing
            .accepted)) := by
  funext ts
  rw [run_cons]
  cases ts with
  | nil => simp [step, begin?]
  | cons t ts =>
    rw [stepBefore_cons, step, Option.bind_some, primaryAfter?_eq]
    by_cases hi : t.isIdentifier = true
    · simp [begin?, hi]
    · by_cases hp : t = .punctuation .leftParen
      · simp [begin?, hp, Terminal.isIdentifier]
      · by_cases hl : among [.number, .string, .keyword .NULL, .operator .star] t = true <;>
          simp only [begin?, hi, hp, hl, choose_cons, lead_cons, among_eq_true_iff,
            List.mem_singleton, Bool.false_eq_true, if_true, if_false, List.drop_one,
            List.tail_cons, List.append_nil, run_nil]

theorem run_applied :
    run [applied] =
      choose (among [.punctuation .leftParen])
        (lead (among [.punctuation .leftParen]) .argument (run [arguments]))
        (maybe (among [.punctuation .dot]) (run [qualified])) := by
  funext ts
  rw [run_cons]
  cases ts with
  | nil => simp [step]
  | cons t ts =>
    by_cases hp : t = .punctuation .leftParen
    · simp [step, hp]
    · by_cases hd : t = .punctuation .dot <;> simp [step, hp, hd]

theorem run_arguments :
    run [arguments] =
      choose (among [.punctuation .rightParen])
        (lead (among [.punctuation .rightParen]) .argument .accepted)
        (choose (among [.operator .star])
          (lead (among [.operator .star]) .argument (run [mark .rightParen .argumentsClose]))
          (run [expression .argument, moreArguments, mark .rightParen .argumentsClose])) := by
  funext ts
  rw [run_cons]
  cases ts with
  | nil => simp [step, begin?, run_cons (expression _)]
  | cons t ts =>
    by_cases hp : t = .punctuation .rightParen
    · simp [step, hp]
    · by_cases hs : t = .operator .star
      · simp [step, hs]
      · cases he : expressionAfter? .argument t <;>
          simp [step, begin?, run_cons (expression _), he, hp, hs]

theorem run_moreArguments :
    run [moreArguments] =
      maybe (among [.punctuation .comma]) (run [expression .argumentAfterComma, moreArguments]) :=
  run_eq_maybe_among fun _ _ _ => rfl

theorem run_moreConditions :
    run [moreConditions] =
      maybe (among [.keyword .AND, .keyword .OR])
        (run [expression .conditionOperand, moreConditions]) := by
  refine run_eq_maybe fun first _ _ => ?_
  cases first <;> simp [step]

theorem run_nullTest :
    run [nullTest] =
      choose (among [.keyword .NOT])
        (lead (among [.keyword .NOT]) .nullAfterIs (run [keyword .NULL .nullAfterIsNot]))
        (lead (among [.keyword .NULL]) .nullAfterIs .accepted) := by
  funext ts
  rw [run_cons]
  cases ts with
  | nil => simp [step]
  | cons t ts =>
    by_cases hnot : t = .keyword .NOT
    · simp [step, hnot]
    · by_cases hnull : t = .keyword .NULL <;> simp [step, hnot, hnull]

theorem run_listAfterIn :
    run [listAfterIn] =
      lead (among [.punctuation .leftParen]) .listAfterIn
        (choose (among [.punctuation .leftParen])
          (run (row ++ [mark .rightParen .listAfterInClose])) (run rowBody)) := by
  funext ts
  rw [run_cons]
  cases ts with
  | nil => simp [step]
  | cons t ts =>
    by_cases ht : t = .punctuation .leftParen
    · cases ts with
      | nil => simp [step, ht]
      | cons u ts => by_cases hu : u = .punctuation .leftParen <;> simp [step, ht, hu]
    · simp [step, ht]

/-- A predicate that may be negated. -/
def predicate : Matcher :=
  choose (among [.keyword .IN]) (lead (among [.keyword .IN]) .operand (run [listAfterIn]))
    (choose (among [.keyword .LIKE])
      (lead (among [.keyword .LIKE]) .operand (run [expression .operand]))
      (lead (among [.keyword .BETWEEN]) .operand
        (run [expression .lowerBound, keyword .AND .boundsAnd, expression .upperBound])))

theorem predicate_cons (t : Terminal) (ts : List Terminal) :
    predicate (t :: ts) = match predicateAfter? t with
      | some next => run next ts
      | none => .rejected .operand (t :: ts) := by
  cases t with
  | keyword k => cases k <;> rfl
  | _ => rfl

theorem isSome_predicateAfter? (t : Terminal) :
    (predicateAfter? t).isSome = among predicateWords t := by
  cases t with
  | keyword k => cases k <;> rfl
  | _ => rfl

theorem run_suffix :
    run [suffix] =
      choose (among [.keyword .NOT]) (negated predicate)
        (choose (among [.keyword .IS]) (lead (among [.keyword .IS]) .operand (run [nullTest]))
          (choose Terminal.isOperator
            (lead Terminal.isOperator .operand (run [expression .operand]))
            (choose (among predicateWords) predicate .accepted))) := by
  funext ts
  rw [run_cons]
  cases ts with
  | nil => simp [step, stepSuffix]
  | cons t ts =>
    by_cases hnot : t = .keyword .NOT
    · cases ts with
      | nil => simp [step, stepSuffix, negated, hnot]
      | cons u ts =>
        cases hp : predicateAfter? u <;>
          simp [step, stepSuffix, negated, hnot, hp, predicate_cons, ← isSome_predicateAfter?]
    · by_cases his : t = .keyword .IS
      · simp [step, stepSuffix, his]
      · by_cases hop : t.isOperator = true
        · simp [step, stepSuffix, hnot, his, hop]
        · cases hp : predicateAfter? t <;>
            simp [step, stepSuffix, hnot, his, hop, hp, predicate_cons, ← isSome_predicateAfter?]

/-! ### Values -/

theorem valueAfter?_eq (t : Terminal) :
    valueAfter? missing t =
      if among [.operator .plus, .operator .minus] t then some [number missing]
      else if among [.number, .string, .keyword .NULL, .keyword .DEFAULT] t then some []
      else none := by
  cases t with
  | keyword k => cases k <;> rfl
  | operator op => cases op <;> rfl
  | _ => rfl

theorem run_value :
    run [value missing] =
      choose (among [.operator .plus, .operator .minus])
        (lead (among [.operator .plus, .operator .minus]) missing (run [number missing]))
        (lead (among [.number, .string, .keyword .NULL, .keyword .DEFAULT]) missing
          .accepted) := by
  funext ts
  rw [run_cons]
  cases ts with
  | nil => simp [step, begin?]
  | cons t ts =>
    rw [stepBefore_cons, step, Option.bind_some, valueAfter?_eq]
    by_cases hs : among [.operator .plus, .operator .minus] t = true
    · simp only [begin?, hs, choose_cons, lead_cons, if_true, List.drop_one, List.tail_cons,
        List.append_nil]
    · by_cases hl : among [.number, .string, .keyword .NULL, .keyword .DEFAULT] t = true <;>
        simp only [begin?, hs, hl, choose_cons, lead_cons, Bool.false_eq_true, if_true, if_false,
          List.drop_one, List.tail_cons, List.append_nil, run_nil]

theorem run_moreValues :
    run [moreValues] =
      maybe (among [.punctuation .comma]) (run [value .valueAfterComma, moreValues]) :=
  run_eq_maybe_among fun _ _ _ => rfl

/-! ### Queries -/

theorem run_columns :
    run [columns] =
      choose (among [.operator .star]) (lead (among [.operator .star]) .column .accepted)
        (run [expression .column, otherName, moreColumns]) := by
  funext ts
  rw [run_cons]
  cases ts with
  | nil => simp [step, begin?, run_cons (expression _)]
  | cons t ts =>
    by_cases hs : t = .operator .star
    · simp [step, hs]
    · cases he : expressionAfter? .column t <;>
        simp [step, begin?, run_cons (expression _), he, hs]

theorem run_moreColumns :
    run [moreColumns] =
      maybe (among [.punctuation .comma])
        (run [expression .columnAfterComma, otherName, moreColumns]) :=
  run_eq_maybe_among fun _ _ _ => rfl

theorem run_source :
    run [source] =
      unlessEnded (lead (among [.keyword .FROM]) .source
        (run [name .sourceTable, otherName, joins, whereClause, groupClause, orderClause,
          limitClause])) := by
  funext ts
  rw [run_cons, unlessEnded]
  cases ts with
  | nil => simp [step, endsStatement]
  | cons t ts =>
    by_cases hfrom : t = .keyword .FROM
    · simp [step, hfrom, endsStatement]
    · by_cases hend : endsStatement (some t) = true <;> simp [step, hfrom, hend]

theorem stepJoins_eq (first second third : Option Terminal) :
    stepJoins first second third = .skip ∨
      ∃ count, stepJoins first second third = .take count joined := by
  unfold stepJoins
  split_ifs <;> simp

theorem run_joins : run [joins] = attempt takeJoin (run joined) := by
  funext ts
  have hstep : joins.stepBefore ts = stepJoins ts[0]? ts[1]? ts[2]? := rfl
  rw [run_cons, attempt, takeJoin, hstep]
  rcases stepJoins_eq ts[0]? ts[1]? ts[2]? with h | ⟨count, h⟩ <;> simp [h]

theorem run_whereClause :
    run [whereClause] = maybe (among [.keyword .WHERE]) (run condition) :=
  run_eq_maybe_among fun _ _ _ => rfl

theorem run_groupClause :
    run [groupClause] =
      maybe (among [.keyword .GROUP]) (run [keyword .BY .groupBy, columns, havingClause]) :=
  run_eq_maybe_among fun _ _ _ => rfl

theorem run_havingClause :
    run [havingClause] = maybe (among [.keyword .HAVING]) (run condition) :=
  run_eq_maybe_among fun _ _ _ => rfl

theorem run_orderClause :
    run [orderClause] =
      maybe (among [.keyword .ORDER])
        (run (keyword .BY .orderBy :: orderColumn .orderColumn ++ [moreOrderColumns])) :=
  run_eq_maybe_among fun _ _ _ => rfl

theorem run_moreOrderColumns :
    run [moreOrderColumns] =
      maybe (among [.punctuation .comma])
        (run (orderColumn .orderColumnAfterComma ++ [moreOrderColumns])) :=
  run_eq_maybe_among fun _ _ _ => rfl

theorem run_limitClause :
    run [limitClause] = maybe (among [.keyword .LIMIT]) (run [number .limit, limitExtent]) :=
  run_eq_maybe_among fun _ _ _ => rfl

theorem run_limitExtent :
    run [limitExtent] =
      choose (among [.keyword .OFFSET]) (lead (among [.keyword .OFFSET]) .offset
        (run [number .offset]))
        (maybe (among [.punctuation .comma]) (run [number .limitAfterComma])) := by
  funext ts
  rw [run_cons]
  cases ts with
  | nil => simp [step]
  | cons t ts =>
    by_cases ho : t = .keyword .OFFSET
    · simp [step, ho]
    · by_cases hc : t = .punctuation .comma <;> simp [step, ho, hc]

/-! ### Changes of data -/

theorem run_columnList :
    run [columnList] =
      maybe (among [.punctuation .leftParen])
        (run [columns, mark .rightParen .columnListClose]) :=
  run_eq_maybe_among fun _ _ _ => rfl

theorem run_moreRows :
    run [moreRows] = maybe (among [.punctuation .comma]) (run (row ++ [moreRows])) :=
  run_eq_maybe_among fun _ _ _ => rfl

theorem run_moreAssignments :
    run [moreAssignments] =
      maybe (among [.punctuation .comma])
        (run (assignment .assignmentAfterComma ++ [moreAssignments])) :=
  run_eq_maybe_among fun _ _ _ => rfl

/-! ### Statements -/

/-- A statement is what its first keyword says, and the terminator after it. -/
theorem run_statement_cons (t : Terminal) (ts : List Terminal) :
    run [statement] (t :: ts) =
      match body? t with
      | some goals => run (goals ++ [terminator]) ts
      | none => .rejected .unknownStatement (t :: ts) := by
  rw [run_cons]
  cases hb : body? t <;> simp [step, begin?, hb]

theorem run_terminator_eq_accepted_iff {ts rest : List Terminal} :
    run [terminator] ts = .accepted rest ↔
      (ts = [] ∧ rest = []) ∨ ts = .punctuation .semicolon :: rest := by
  rw [run_cons]
  cases ts with
  | nil =>
    rw [stepBefore_nil]
    cases rest <;> simp [step]
  | cons t ts =>
    by_cases ht : t = .punctuation .semicolon <;> simp [step, ht]

end SqlChecker.Goal
