import SqlChecker.Proofs.Grammar.Definition
import SqlChecker.Proofs.Matching.Goals

/-! # What the goals of a definition match

The goals of the statements that create and alter tables.  A group in parentheses is no matcher of
the sorts above, since it needs a count, and has its own equations, one for each sort of terminal.
-/
namespace SqlChecker.Goal
open Matcher Terminal Step

variable (missing : SyntaxError)

/-! ### Groups -/

section
variable (outer : Nat) (ts : List Terminal)

theorem run_group_nil : run [group outer] [] = .accepted [] := by
  simp [run_cons, step, stepGroup]

theorem run_group_open :
    run [group outer] (.punctuation .leftParen :: ts) = run [group (outer + 1)] ts := by
  rw [run_cons]
  rfl

theorem run_group_close : run [group 0] (.punctuation .rightParen :: ts) = .accepted ts := by
  rw [run_cons]
  exact congrFun run_nil ts

theorem run_group_close_succ :
    run [group (outer + 1)] (.punctuation .rightParen :: ts) = run [group outer] ts := by
  rw [run_cons]
  rfl

theorem stepGroup_other {t : Terminal}
    (ht : t ∉ [Terminal.punctuation .leftParen, .punctuation .rightParen]) :
    stepGroup outer (some t) = .take 1 [group outer] := by
  unfold stepGroup
  split <;> simp_all

theorem run_group_other {t : Terminal}
    (ht : t ∉ [Terminal.punctuation .leftParen, .punctuation .rightParen]) :
    run [group outer] (t :: ts) = run [group outer] ts := by
  rw [run_cons, stepBefore_cons, step, stepGroup_other outer ht]
  rfl

end

/-- Parentheses that close a group and the groups around it. -/
theorem run_group_rightParens (outer : Nat) (goals : List Goal) (rest : List Terminal) :
    run (group outer :: goals) (List.replicate (outer + 1) (.punctuation .rightParen) ++ rest) =
      run goals rest := by
  induction outer with
  | zero => exact run_cons_of_accepted (run_group_close rest) goals
  | succ outer ih =>
    rw [List.replicate_succ, List.cons_append]
    exact (run_cons_congr (run_group_close_succ outer _) goals).trans ih

/-! ### Columns -/

theorem run_dataType : run [dataType] = lead isIdentifier .dataType (run [typeLength]) :=
  run_eq_lead fun _ _ _ => rfl

theorem run_typeLength :
    run [typeLength] =
      maybe (among [.punctuation .leftParen])
        (run [number .typeLength, typeScale, mark .rightParen .typeClose]) :=
  run_eq_maybe_among fun _ _ _ => rfl

theorem run_typeScale :
    run [typeScale] = maybe (among [.punctuation .comma]) (run [number .typeScale]) :=
  run_eq_maybe_among fun _ _ _ => rfl

theorem run_referencedColumn :
    run [referencedColumn] =
      maybe (among [.punctuation .leftParen])
        (run [name .referencedColumn, mark .rightParen .referencedClose]) :=
  run_eq_maybe_among fun _ _ _ => rfl

theorem run_referenceActions :
    run [referenceActions] =
      maybe (among [.keyword .ON])
        (run [expect [.keyword .DELETE, .keyword .UPDATE] .referenceEvent, referenceAction,
          referenceActions]) :=
  run_eq_maybe_among fun _ _ _ => rfl

theorem referenceActionAfter?_eq (t : Terminal) :
    referenceActionAfter? t =
      if among [.keyword .CASCADE, .keyword .RESTRICT] t then some []
      else if t = .keyword .SET then
        some [expect [.keyword .NULL, .keyword .DEFAULT] .setAction]
      else if t = .identifier .no then some [expect [.identifier .action] .noAction]
      else none := by
  cases t with
  | keyword k => cases k <;> rfl
  | identifier w => cases w <;> rfl
  | _ => rfl

theorem run_referenceAction :
    run [referenceAction] =
      choose (among [.keyword .CASCADE, .keyword .RESTRICT])
        (lead (among [.keyword .CASCADE, .keyword .RESTRICT]) .referenceAction .accepted)
        (choose (among [.keyword .SET])
          (lead (among [.keyword .SET]) .referenceAction
            (run [expect [.keyword .NULL, .keyword .DEFAULT] .setAction]))
          (lead (among [.identifier .no]) .referenceAction
            (run [expect [.identifier .action] .noAction]))) := by
  funext ts
  rw [run_cons]
  cases ts with
  | nil => simp [step, begin?]
  | cons t ts =>
    rw [stepBefore_cons, step, Option.bind_some, referenceActionAfter?_eq]
    by_cases hc : among [.keyword .CASCADE, .keyword .RESTRICT] t = true
    · simp only [begin?, hc, choose_cons, lead_cons, if_true, List.drop_one, List.tail_cons,
        List.append_nil, run_nil]
    · by_cases hs : t = .keyword .SET
      · simp [begin?, hs]
      · by_cases hn : t = .identifier .no
        · simp [begin?, hn]
        · simp only [begin?, hc, hs, hn, choose_cons, lead_cons, among_eq_true_iff,
            List.mem_singleton, Bool.false_eq_true, if_false]

theorem constraintAfter_eq (t : Terminal) :
    constraintAfter t =
      if t = .keyword .NOT then [keyword .NULL .nullAfterNot]
      else if t = .keyword .DEFAULT then [value .defaultValue]
      else if t = .keyword .PRIMARY then [optional [.keyword .KEY]]
      else if t = .keyword .REFERENCES then
        [name .referencedTable, referencedColumn, referenceActions]
      else if t = .punctuation .leftParen then [group 0]
      else [] := by
  cases t with
  | keyword k => cases k <;> rfl
  | punctuation p => cases p <;> rfl
  | _ => rfl

theorem endsDefinition_some (t : Terminal) :
    endsDefinition (some t) =
      among [.punctuation .comma, .punctuation .rightParen, .punctuation .semicolon] t := by
  cases t with
  | punctuation p => cases p <;> rfl
  | _ => simp [endsDefinition, among]

/-- What is not plain ends a definition, apart from a parenthesis that begins a group. -/
theorem isPlain_eq_not_endsDefinition {t : Terminal} (h : t ≠ .punctuation .leftParen) :
    Grammar.isPlain t = !endsDefinition (some t) := by
  rw [endsDefinition_some, Grammar.isPlain]
  simp only [among, List.mem_cons, List.not_mem_nil, or_false, h, false_or]
  exact congrArg _ (decide_eq_decide.mpr or_left_comm)

theorem endsStatement_some (t : Terminal) :
    endsStatement (some t) = among [.punctuation .semicolon] t := by
  cases t with
  | punctuation p => cases p <;> rfl
  | _ => simp [endsStatement, among]

theorem run_constraints :
    run [constraints] =
      choose (among [.keyword .NOT])
        (lead (among [.keyword .NOT]) missing (run [keyword .NULL .nullAfterNot, constraints]))
        (choose (among [.keyword .DEFAULT])
          (lead (among [.keyword .DEFAULT]) missing (run [value .defaultValue, constraints]))
          (choose (among [.keyword .PRIMARY])
            (lead (among [.keyword .PRIMARY]) missing
              (run [optional [.keyword .KEY], constraints]))
            (choose (among [.keyword .REFERENCES])
              (lead (among [.keyword .REFERENCES]) missing
                (run [name .referencedTable, referencedColumn, referenceActions, constraints]))
              (choose (among [.punctuation .leftParen])
                (lead (among [.punctuation .leftParen]) missing (run [group 0, constraints]))
                (maybe (fun t => among [.keyword .UNIQUE] t || Grammar.isOther t)
                  (run [constraints])))))) := by
  funext ts
  rw [run_cons]
  cases ts with
  | nil => simp [step, endsDefinition]
  | cons t ts =>
    by_cases hword : t ∈ [.keyword .NOT, .keyword .DEFAULT, .keyword .PRIMARY, .keyword .REFERENCES,
        .punctuation .leftParen]
    · simp only [List.mem_cons, List.not_mem_nil, or_false] at hword
      rcases hword with rfl | rfl | rfl | rfl | rfl <;>
        simp [step, endsDefinition, stepConstraint, Step.before, constraintAfter]
    · simp only [List.mem_cons, List.not_mem_nil, or_false, not_or] at hword
      obtain ⟨hnot, hdefault, hprimary, hreferences, hgroup⟩ := hword
      -- `UNIQUE` is a constraint by itself as well, and so is what begins none.
      have hafter : constraintAfter t = [] := by
        simp [constraintAfter_eq, hnot, hdefault, hprimary, hreferences, hgroup]
      have hmaybe : (among [.keyword .UNIQUE] t || Grammar.isOther t) =
          !endsDefinition (some t) := by
        rw [← isPlain_eq_not_endsDefinition hgroup, Grammar.isOther]
        by_cases hunique : t = .keyword .UNIQUE
        · simp [hunique, Grammar.isPlain, among]
        · simp [Grammar.constraintWords, among, hnot, hdefault, hprimary, hreferences, hunique]
      cases hends : endsDefinition (some t) <;>
        simp [step, stepConstraint, Step.before, hafter, hmaybe, hends, hnot, hdefault, hprimary,
          hreferences, hgroup]

/-! ### Tables -/

theorem isAnyKeyword_tableConstraint (t : Terminal) :
    isAnyKeyword (some t) tableConstraintKeywords = Grammar.isTableConstraint t := rfl

theorem isAnyKeyword_removedPart (t : Terminal) :
    isAnyKeyword (some t) removedPartKeywords = Grammar.isRemovedPart t := rfl

theorem run_definition :
    run [definition] =
      choose Grammar.isTableConstraint
        (lead Grammar.isTableConstraint .definedColumn (run [tableConstraint]))
        (run columnDefinition) := by
  funext ts
  rw [run_cons]
  cases ts with
  | nil => simp [step, begin?, isAnyKeyword, columnDefinition, run_cons (name _)]
  | cons t ts =>
    by_cases hc : Grammar.isTableConstraint t = true
    · simp [step, isAnyKeyword_tableConstraint, hc]
    · cases hn : nameAfter? t <;>
        simp [step, begin?, isAnyKeyword_tableConstraint, columnDefinition, run_cons (name _), hn,
          hc]

theorem run_moreDefinitions :
    run [moreDefinitions] =
      maybe (among [.punctuation .comma]) (run [definition, moreDefinitions]) :=
  run_eq_maybe_among fun _ _ _ => rfl

theorem run_tableConstraint :
    run [tableConstraint] =
      choose (among [.punctuation .leftParen])
        (lead (among [.punctuation .leftParen]) missing (run [group 0, tableConstraint]))
        (maybe Grammar.isPlain (run [tableConstraint])) := by
  funext ts
  rw [run_cons]
  cases ts with
  | nil => simp [step, endsDefinition]
  | cons t ts =>
    by_cases hp : t = .punctuation .leftParen
    · simp [step, endsDefinition, hp]
    · by_cases hends : endsDefinition (some t) = true <;>
        simp [step, isPlain_eq_not_endsDefinition hp, hp, hends]

theorem run_alteration :
    run [alteration] =
      choose (among [.keyword .ADD]) (lead (among [.keyword .ADD]) missing (run [addition]))
        (lead (among [.keyword .DROP]) .alteration (run [removal])) := by
  funext ts
  rw [run_cons]
  cases ts with
  | nil => simp [step]
  | cons t ts =>
    by_cases ha : t = .keyword .ADD
    · simp [step, ha]
    · by_cases hd : t = .keyword .DROP <;> simp [step, ha, hd]

theorem run_addition :
    run [addition] =
      choose (among [.keyword .COLUMN])
        (lead (among [.keyword .COLUMN]) missing (run columnDefinition))
        (choose Grammar.isTableConstraint
          (lead Grammar.isTableConstraint missing (run [untilTerminator]))
          (run columnDefinition)) := by
  funext ts
  rw [run_cons]
  cases ts with
  | nil => simp [step, begin?, isAnyKeyword, columnDefinition, run_cons (name _)]
  | cons t ts =>
    by_cases hc : t = .keyword .COLUMN
    · simp [step, hc]
    · by_cases ht : Grammar.isTableConstraint t = true
      · simp [step, isAnyKeyword_tableConstraint, hc, ht]
      · cases hn : nameAfter? t <;>
          simp [step, begin?, isAnyKeyword_tableConstraint, columnDefinition, run_cons (name _), hn,
            hc, ht]

theorem run_removal :
    run [removal] =
      choose (among [.keyword .COLUMN])
        (lead (among [.keyword .COLUMN]) missing (run [name .removedColumn]))
        (choose Grammar.isRemovedPart
          (lead Grammar.isRemovedPart missing (run [untilTerminator]))
          (run [name .removedName])) := by
  funext ts
  rw [run_cons]
  cases ts with
  | nil => simp [step, begin?, isAnyKeyword, run_cons (name _)]
  | cons t ts =>
    by_cases hc : t = .keyword .COLUMN
    · simp [step, hc]
    · by_cases ht : Grammar.isRemovedPart t = true
      · simp [step, isAnyKeyword_removedPart, hc, ht]
      · cases hn : nameAfter? t <;>
          simp [step, begin?, isAnyKeyword_removedPart, run_cons (name _), hn, hc, ht]

theorem run_untilTerminator :
    run [untilTerminator] =
      maybe (fun t => !among [.punctuation .semicolon] t) (run [untilTerminator]) := by
  refine run_eq_maybe fun first _ _ => ?_
  cases first with
  | none => rfl
  | some t =>
    rw [step, endsStatement_some]
    cases h : among [.punctuation .semicolon] t <;> simp [h]

end SqlChecker.Goal
