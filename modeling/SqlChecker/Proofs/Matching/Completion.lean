import Mathlib.Tactic.SplitIfs
import SqlChecker.Proofs.Matching.Definitions
import SqlChecker.Proofs.Matching.Prefix

/-! # Completing what is left

Whatever goals are left in the middle of a statement, some terminals match them all: `completion`
puts one short match after the other.  That works because of what goals are found together.  A goal
might take a terminal that is meant for the goals behind it, but those that a step leaves are always
orderly: each leaves alone what completes the others.  Every step keeps it so
(`isOrderlyBefore_of_step`), and orderly goals are matched by their completion (`run_completion`).
-/
namespace SqlChecker.Goal
open Step

/-- Some terminals that match a goal: none, if it may be skipped, unless it is a group. -/
def closing : Goal → List Terminal
  | statement => [.keyword .DROP, .keyword .TABLE, .identifier .other]
  | expect wanted _ => wanted.take 1
  | name _ | qualified | removal | dataType => [.identifier .other]
  | definition | addition => [.identifier .other, .identifier .other]
  | alteration => [.keyword .DROP, .identifier .other]
  | expression _ | primary _ | columns | value _ => [.number]
  | arguments => [.punctuation .rightParen]
  | nullTest => [.keyword .NULL]
  | listAfterIn => [.punctuation .leftParen, .number, .punctuation .rightParen]
  | referenceAction => [.keyword .CASCADE]
  | group outer => List.replicate (outer + 1) (.punctuation .rightParen)
  | _ => []

/-- Some terminals that match goals one after the other. -/
def completion (goals : List Goal) : List Terminal := goals.flatMap closing

/-- The terminals that a step looks for behind the next one, a parenthesis apart. -/
def soughtBehind : List Terminal :=
  [.keyword .IN, .keyword .LIKE, .keyword .BETWEEN, .keyword .JOIN, .keyword .OUTER]

/-- What a goal leaves alone when it has been matched, of what may complete the goals behind it. -/
def leavesAlone (g : Goal) (t : Terminal) : Bool :=
  match g with
  | expect .. | qualified | value _ | arguments | nullTest | listAfterIn | referenceAction
  | group _ => true
  | optional wanted => t ∉ wanted
  | name _ | qualifier => t ≠ .punctuation .dot
  | otherName => t ∈ [.punctuation .rightParen, .keyword .ON]
  | expression _ | primary _ | applied | suffix => t ∈ [.punctuation .rightParen, .keyword .AND]
  | columnList => t = .keyword .VALUES
  | statement | terminator | untilTerminator | alteration | addition | removal | source
  | constraint => false
  | _ => t = .punctuation .rightParen

/-- A goal that asks for a terminal asks for one that can be there, and that is not looked for from
in front of it. -/
def isSound : Goal → Bool
  | expect wanted _ => wanted.head?.any (· ∉ .fault :: soughtBehind)
  | _ => true

/-- Before this terminal, or the end, each goal leaves alone what completes those behind it. -/
def isOrderlyBefore (t? : Option Terminal) : List Goal → Bool
  | [] => true
  | g :: goals => g.isSound && ((completion goals).head?.or t?).all g.leavesAlone &&
      isOrderlyBefore t? goals

/-- Each goal leaves alone what completes those behind it. -/
def isOrderly (goals : List Goal) : Bool := isOrderlyBefore none goals

variable {g : Goal} {goals next : List Goal} {first second third t? : Option Terminal}
variable {count : Nat} {rest : List Terminal}

/-! ### What is left alone -/

theorem eq_none_of_all_false (h : t?.all (fun _ => false) = true) : t? = none := by
  cases t? with
  | none => rfl
  | some t => cases h

theorem eq_none_or_rightParen
    (h : t?.all (fun t => decide (t = .punctuation .rightParen)) = true) :
    t? = none ∨ t? = some (.punctuation .rightParen) := by
  cases t? with
  | none => exact .inl rfl
  | some t => exact .inr (congrArg some (of_decide_eq_true h))

/-- What a goal in the middle of others leaves alone is left alone by all that do so with a closing
parenthesis. -/
theorem leavesAlone_of_rightParen
    (hr : t?.all (fun t => decide (t = .punctuation .rightParen)) = true)
    (hg : g.leavesAlone (.punctuation .rightParen) = true) : t?.all g.leavesAlone = true := by
  rcases eq_none_or_rightParen hr with rfl | rfl
  · rfl
  · exact hg

/-! ### Single goals -/

theorem run_cons_of_skip {ts : List Terminal} (h : g.stepBefore ts = .skip) (goals : List Goal) :
    run (g :: goals) ts = run goals ts := by
  rw [run_cons, h]

theorem run_cons_of_take {t : Terminal} {ts : List Terminal} (next goals : List Goal)
    (h : g.stepBefore (t :: ts) = .take 1 next) :
    run (g :: goals) (t :: ts) = run (next ++ goals) ts := by
  rw [run_cons, h]
  rfl

/-- A goal that nothing closes is skipped before what it leaves alone. -/
theorem stepBefore_eq_skip (hc : closing g = []) (hg : g.isSound = true)
    (hr : rest.head?.all g.leavesAlone = true) : g.stepBefore rest = .skip := by
  cases rest with
  | nil =>
    cases g
    case expect wanted missing => cases wanted <;> first | cases hg | cases hc
    all_goals first | rfl | cases hc
  | cons t rest =>
    rw [List.head?_cons, Option.all_some] at hr
    cases g
    case expect wanted missing => cases wanted <;> first | cases hg | cases hc
    case optional wanted =>
      have ht : t ∉ wanted := of_decide_eq_true hr
      simp [step, ht]
    case qualifier =>
      have ht : t ≠ .punctuation .dot := of_decide_eq_true hr
      simp [step, ht]
    case otherName =>
      have ht : t ∈ [.punctuation .rightParen, .keyword .ON] := of_decide_eq_true hr
      simp only [List.mem_cons, List.not_mem_nil, or_false] at ht
      rcases ht with rfl | rfl <;> rfl
    case applied | suffix =>
      have ht : t ∈ [.punctuation .rightParen, .keyword .AND] := of_decide_eq_true hr
      simp only [List.mem_cons, List.not_mem_nil, or_false] at ht
      rcases ht with rfl | rfl <;> rfl
    case columnList =>
      obtain rfl : t = .keyword .VALUES := of_decide_eq_true hr
      rfl
    case source | terminator | untilTerminator | constraint => cases hr
    all_goals first
      | cases hc; done
      | obtain rfl : t = .punctuation .rightParen := of_decide_eq_true hr
        rfl

/-- A goal that nothing closes leaves what is to be matched to the goals behind it. -/
theorem run_cons_of_closing_eq_nil (g : Goal) (goals : List Goal) (hc : closing g = [])
    (hg : g.isSound = true) (hr : rest.head?.all g.leavesAlone = true) :
    run (g :: goals) rest = run goals rest :=
  run_cons_of_skip (stepBefore_eq_skip hc hg hr) goals

/-- A name is matched by an identifier. -/
theorem run_identifier (missing : SyntaxError) (goals : List Goal)
    (hr : rest.head?.all qualifier.leavesAlone = true) :
    run (name missing :: goals) (.identifier .other :: rest) = run goals rest :=
  (run_cons_of_take [qualifier] goals rfl).trans
    (run_cons_of_closing_eq_nil qualifier goals rfl rfl hr)

/-- **A goal is matched by its closing terminals**, before what it leaves alone. -/
theorem run_closing (hg : g.isSound = true) (hr : rest.head?.all g.leavesAlone = true) :
    run [g] (closing g ++ rest) = .accepted rest := by
  have done : run [] rest = .accepted rest := congrFun run_nil rest
  cases g
  case expect wanted missing =>
    cases wanted with
    | nil => cases hg
    | cons w ws =>
      have taken : (expect (w :: ws) missing).stepBefore (w :: rest) = .take 1 [] := by simp [step]
      exact (run_cons_of_take [] [] taken).trans done
  case group outer => exact (run_group_rightParens outer [] rest).trans done
  case statement | alteration | removal | addition =>
    obtain rfl := List.head?_eq_none_iff.mp (eq_none_of_all_false hr)
    decide +kernel
  case qualified | value | arguments | nullTest | referenceAction | primary =>
    exact (run_cons_of_take _ [] rfl).trans done
  case name missing => exact (run_identifier missing [] hr).trans done
  case expression missing =>
    calc run [expression missing] (.number :: rest)
      _ = run [suffix] rest := run_cons_of_take [suffix] [] rfl
      _ = run [] rest := run_cons_of_closing_eq_nil suffix [] rfl rfl hr
      _ = .accepted rest := done
  case columns =>
    calc run [columns] (.number :: rest)
      _ = run [suffix, otherName, moreColumns] rest :=
        run_cons_of_take [suffix, otherName, moreColumns] [] rfl
      _ = run [otherName, moreColumns] rest :=
        run_cons_of_closing_eq_nil suffix _ rfl rfl (leavesAlone_of_rightParen hr rfl)
      _ = run [moreColumns] rest :=
        run_cons_of_closing_eq_nil otherName _ rfl rfl (leavesAlone_of_rightParen hr rfl)
      _ = run [] rest := run_cons_of_closing_eq_nil moreColumns [] rfl rfl hr
      _ = .accepted rest := done
  case dataType =>
    calc run [dataType] (.identifier .other :: rest)
      _ = run [typeLength] rest := run_cons_of_take [typeLength] [] rfl
      _ = run [] rest := run_cons_of_closing_eq_nil typeLength [] rfl rfl hr
      _ = .accepted rest := done
  case listAfterIn =>
    calc run [listAfterIn] (.punctuation .leftParen :: .number :: .punctuation .rightParen :: rest)
      _ = run rowBody (.number :: .punctuation .rightParen :: rest) :=
        run_cons_of_take rowBody [] rfl
      _ = run [moreValues, mark .rightParen .valuesClose] (.punctuation .rightParen :: rest) :=
        run_cons_of_take [] _ rfl
      _ = run [mark .rightParen .valuesClose] (.punctuation .rightParen :: rest) :=
        run_cons_of_skip rfl _
      _ = run [] rest := run_cons_of_take [] [] rfl
      _ = .accepted rest := done
  case definition =>
    calc run [definition] (.identifier .other :: .identifier .other :: rest)
      _ = run [qualifier, dataType, constraints] (.identifier .other :: rest) :=
        run_cons_of_take [qualifier, dataType, constraints] [] rfl
      _ = run [dataType, constraints] (.identifier .other :: rest) := run_cons_of_skip rfl _
      _ = run [typeLength, constraints] rest := run_cons_of_take [typeLength] _ rfl
      _ = run [constraints] rest := run_cons_of_closing_eq_nil typeLength _ rfl rfl hr
      _ = run [] rest := run_cons_of_closing_eq_nil constraints [] rfl rfl hr
      _ = .accepted rest := done
  all_goals exact (run_cons_of_closing_eq_nil _ [] rfl hg hr).trans done

/-! ### Orderly goals -/

theorem completion_append (as bs : List Goal) :
    completion (as ++ bs) = completion as ++ completion bs := List.flatMap_append

theorem isOrderlyBefore_append (as bs : List Goal) :
    isOrderlyBefore t? (as ++ bs) =
      (isOrderlyBefore ((completion bs).head?.or t?) as && isOrderlyBefore t? bs) := by
  induction as with
  | nil => rfl
  | cons g as ih =>
    rw [List.cons_append, isOrderlyBefore, isOrderlyBefore, ih, completion_append,
      List.head?_append, Option.or_assoc, Bool.and_assoc (_ && _)]

/-- **Orderly goals are matched by their completion.** -/
theorem run_completion (h : isOrderly goals = true) :
    run goals (completion goals) = .accepted [] := by
  induction goals with
  | nil => exact congrFun run_nil []
  | cons g goals ih =>
    simp only [isOrderly, isOrderlyBefore, Option.or_none, Bool.and_eq_true] at h
    obtain ⟨⟨hg, hr⟩, hgoals⟩ := h
    exact (run_cons_of_accepted (run_closing hg hr) goals).trans (ih hgoals)

/-! ### Steps -/

/-- All goals that are left, if any are, are orderly. -/
def leavesOrderly (t? : Option Terminal) (next? : Option (List Goal)) : Bool :=
  next?.all (isOrderlyBefore t?)

theorem leavesOrderly_bind {f : Terminal → Option (List Goal)}
    (h : ∀ t, leavesOrderly t? (f t) = true) : leavesOrderly t? (first.bind f) = true := by
  cases first with
  | none => rfl
  | some t => exact h t

theorem leavesOrderly_map {next? : Option (List Goal)}
    (h : leavesOrderly ((completion goals).head?.or t?) next? = true)
    (hg : isOrderlyBefore t? goals = true) : leavesOrderly t? (next?.map (· ++ goals)) = true := by
  cases next? with
  | none => rfl
  | some next =>
    show isOrderlyBefore t? (next ++ goals) = true
    rw [isOrderlyBefore_append, hg, Bool.and_true]
    exact h

theorem isOrderlyBefore_of_take {count' : Nat} {next' : List Goal}
    (h : take count' next' = .take count next) (hn : isOrderlyBefore t? next' = true) :
    isOrderlyBefore t? next = true := by
  obtain ⟨-, rfl⟩ := Step.take.inj h
  exact hn

theorem isOrderlyBefore_of_begin? {missing : SyntaxError} {next? : Option (List Goal)}
    (h : begin? missing next? = .take count next) (hn : leavesOrderly t? next? = true) :
    isOrderlyBefore t? next = true := by
  obtain ⟨-, rfl⟩ := begin?_eq_take h
  exact hn

theorem leavesOrderly_nameAfter? (hr : t?.all qualifier.leavesAlone = true) (t : Terminal) :
    leavesOrderly t? (nameAfter? t) = true := by
  unfold nameAfter?
  split
  · simp [leavesOrderly, isOrderlyBefore, completion, isSound, hr]
  · rfl

/-- What may complete the goals behind an operand. -/
def operandEnds : List (Option Terminal) :=
  [none, some (.punctuation .rightParen), some (.keyword .AND)]

theorem mem_operandEnds
    (h : t?.all (fun t => decide (t ∈ [.punctuation .rightParen, .keyword .AND])) = true) :
    t? ∈ operandEnds := by
  cases t? with
  | none => exact List.mem_cons_self
  | some t => simpa [operandEnds] using h

theorem eq_of_mem_operandEnds (h : t? ∈ operandEnds) :
    t? = none ∨ t? = some (.punctuation .rightParen) ∨ t? = some (.keyword .AND) := by
  simpa [operandEnds] using h

theorem leavesOrderly_primaryAfter? (h : t? ∈ operandEnds) (t : Terminal) :
    leavesOrderly t? (primaryAfter? t) = true := by
  unfold primaryAfter?
  rcases eq_of_mem_operandEnds h with rfl | rfl | rfl <;> split <;> rfl

theorem leavesOrderly_expressionAfter? (h : t? ∈ operandEnds) (missing : SyntaxError)
    (t : Terminal) : leavesOrderly t? (expressionAfter? missing t) = true := by
  have hsuffix : isOrderlyBefore t? [suffix] = true := by
    rcases eq_of_mem_operandEnds h with rfl | rfl | rfl <;> rfl
  unfold expressionAfter?
  split
  · rcases eq_of_mem_operandEnds h with rfl | rfl | rfl <;> rfl
  · rcases eq_of_mem_operandEnds h with rfl | rfl | rfl <;> rfl
  · exact leavesOrderly_map (leavesOrderly_primaryAfter? h _) hsuffix

theorem leavesOrderly_valueAfter? (missing : SyntaxError) (t : Terminal) :
    leavesOrderly t? (valueAfter? missing t) = true := by
  unfold valueAfter?
  split <;> cases t? <;> rfl

theorem leavesOrderly_predicateAfter? (h : t? ∈ operandEnds) (t : Terminal) :
    leavesOrderly t? (predicateAfter? t) = true := by
  unfold predicateAfter?
  rcases eq_of_mem_operandEnds h with rfl | rfl | rfl <;> split <;> rfl

theorem leavesOrderly_referenceActionAfter? (t : Terminal) :
    leavesOrderly t? (referenceActionAfter? t) = true := by
  unfold referenceActionAfter?
  split <;> cases t? <;> rfl

theorem leavesOrderly_body? (t : Terminal) :
    leavesOrderly none ((body? t).map (· ++ [terminator])) = true := by
  unfold body?
  split <;> rfl

theorem isOrderlyBefore_constraintAfter
    (hr : t?.all (fun t => decide (t = .punctuation .rightParen)) = true) (t : Terminal) :
    isOrderlyBefore t? (constraintAfter t) = true := by
  unfold constraintAfter
  rcases eq_none_or_rightParen hr with rfl | rfl <;> split <;> rfl

theorem isOrderlyBefore_of_stepSuffix (ht : t? ∈ operandEnds)
    (h : stepSuffix first second = .take count next) : isOrderlyBefore t? next = true := by
  have predicate {t : Option Terminal} {goals : List Goal}
      (hp : t.bind predicateAfter? = some goals) : isOrderlyBefore t? goals = true := by
    have orderly : leavesOrderly t? (t.bind predicateAfter?) = true :=
      leavesOrderly_bind (leavesOrderly_predicateAfter? ht)
    rw [hp] at orderly
    exact orderly
  unfold stepSuffix at h
  split_ifs at h
  · split at h
    · next hp =>
      exact isOrderlyBefore_of_take h (predicate hp)
    · cases h
  · exact isOrderlyBefore_of_take h (by cases t? <;> rfl)
  · refine isOrderlyBefore_of_take h ?_
    rcases eq_of_mem_operandEnds ht with rfl | rfl | rfl <;> rfl
  · split at h
    · next hp =>
      exact isOrderlyBefore_of_take h (predicate hp)
    · cases h

/-- A group leaves nothing but a group. -/
theorem isOrderlyBefore_of_stepGroup {outer : Nat} (h : stepGroup outer first = .take count next) :
    isOrderlyBefore t? next = true := by
  have group (k : Nat) : isOrderlyBefore t? [group k] = true := by cases t? <;> rfl
  unfold stepGroup at h
  split at h
  · cases h
  · exact isOrderlyBefore_of_take h (group _)
  · split at h
    · exact isOrderlyBefore_of_take h rfl
    · exact isOrderlyBefore_of_take h (group _)
  · exact isOrderlyBefore_of_take h (group _)

/-- **What a goal leaves is orderly**, before whatever the goal leaves alone. -/
theorem isOrderlyBefore_of_step (hr : t?.all g.leavesAlone = true)
    (h : g.step first second third = .take count next) : isOrderlyBefore t? next = true := by
  cases g
  -- Goals that take a terminal and leave nothing.
  case expect | optional | terminator | qualified =>
    simp only [step] at h
    split_ifs at h
    exact isOrderlyBefore_of_take h rfl
  -- Goals that leave everything alone in the end.
  case nullTest | listAfterIn | columnList | applied | qualifier =>
    simp only [step] at h
    split_ifs at h <;> exact isOrderlyBefore_of_take h (by cases t? <;> rfl)
  case value => exact isOrderlyBefore_of_begin? h (leavesOrderly_bind (leavesOrderly_valueAfter? _))
  case referenceAction =>
    exact isOrderlyBefore_of_begin? h (leavesOrderly_bind leavesOrderly_referenceActionAfter?)
  case group => exact isOrderlyBefore_of_stepGroup h
  case arguments =>
    -- Behind an argument comes the parenthesis.
    have ends : some (.punctuation .rightParen) ∈ operandEnds := by decide
    have behind : isOrderlyBefore t? [moreArguments, mark .rightParen .argumentsClose] = true := by
      cases t? <;> rfl
    simp only [step] at h
    split_ifs at h
    · exact isOrderlyBefore_of_take h rfl
    · exact isOrderlyBefore_of_take h (by cases t? <;> rfl)
    · exact isOrderlyBefore_of_begin? h (leavesOrderly_map
        (leavesOrderly_bind (leavesOrderly_expressionAfter? ends _)) behind)
  case name => exact isOrderlyBefore_of_begin? h (leavesOrderly_bind (leavesOrderly_nameAfter? hr))
  case otherName =>
    have renamed : isOrderlyBefore t? [name .aliasName] = true := by
      cases t? with
      | none => rfl
      | some t =>
        have ht : t ∈ [.punctuation .rightParen, .keyword .ON] := of_decide_eq_true hr
        simp only [List.mem_cons, List.not_mem_nil, or_false] at ht
        rcases ht with rfl | rfl <;> rfl
    simp only [step] at h
    split_ifs at h
    · exact isOrderlyBefore_of_take h renamed
    · exact isOrderlyBefore_of_take h rfl
  -- Goals that may stand in front of `AND`.
  case expression missing =>
    exact isOrderlyBefore_of_begin? h
      (leavesOrderly_bind (leavesOrderly_expressionAfter? (mem_operandEnds hr) missing))
  case primary =>
    exact isOrderlyBefore_of_begin? h
      (leavesOrderly_bind (leavesOrderly_primaryAfter? (mem_operandEnds hr)))
  case suffix => exact isOrderlyBefore_of_stepSuffix (mem_operandEnds hr) h
  -- Goals that come last.
  case statement =>
    obtain rfl := eq_none_of_all_false hr
    simp only [step] at h
    split at h
    · cases h
    · exact isOrderlyBefore_of_begin? h (leavesOrderly_body? _)
  case addition =>
    obtain rfl := eq_none_of_all_false hr
    simp only [step] at h
    split_ifs at h
    · exact isOrderlyBefore_of_take h rfl
    · exact isOrderlyBefore_of_take h rfl
    · exact isOrderlyBefore_of_begin? h
        (leavesOrderly_map (leavesOrderly_bind (leavesOrderly_nameAfter? rfl)) rfl)
  case removal =>
    obtain rfl := eq_none_of_all_false hr
    simp only [step] at h
    split_ifs at h
    · exact isOrderlyBefore_of_take h rfl
    · exact isOrderlyBefore_of_take h rfl
    · exact isOrderlyBefore_of_begin? h (leavesOrderly_bind (leavesOrderly_nameAfter? rfl))
  case constraint =>
    obtain rfl := eq_none_of_all_false hr
    obtain ⟨t, -, -, rfl⟩ := stepConstraint_eq_take h
    exact isOrderlyBefore_constraintAfter rfl t
  case alteration | untilTerminator | source =>
    obtain rfl := eq_none_of_all_false hr
    simp only [step] at h
    split_ifs at h <;> exact isOrderlyBefore_of_take h rfl
  -- Goals that come last or in front of a closing parenthesis.
  case columns =>
    simp only [step] at h
    split_ifs at h
    · exact isOrderlyBefore_of_take h rfl
    · refine isOrderlyBefore_of_begin? h (leavesOrderly_map
        (leavesOrderly_bind (leavesOrderly_expressionAfter? ?_ _)) ?_)
      · rcases eq_none_or_rightParen hr with rfl | rfl <;> decide
      · rcases eq_none_or_rightParen hr with rfl | rfl <;> rfl
  case definition =>
    simp only [step] at h
    split_ifs at h
    · rcases eq_none_or_rightParen hr with rfl | rfl <;> exact isOrderlyBefore_of_take h rfl
    · refine isOrderlyBefore_of_begin? h (leavesOrderly_map
        (leavesOrderly_bind (leavesOrderly_nameAfter? rfl)) ?_)
      rcases eq_none_or_rightParen hr with rfl | rfl <;> rfl
  case constraints =>
    obtain ⟨t, -, -, -, rfl⟩ := step_constraints_eq_take h
    have last : isOrderlyBefore t? [constraints] = true := by
      rcases eq_none_or_rightParen hr with rfl | rfl <;> rfl
    rw [isOrderlyBefore_append, last, Bool.and_true]
    exact isOrderlyBefore_constraintAfter hr t
  all_goals
    simp only [step, stepJoins] at h
    rcases eq_none_or_rightParen hr with rfl | rfl <;> split_ifs at h <;>
      exact isOrderlyBefore_of_take h rfl

/-! ### Runs -/

theorem isOrderly_of_moveBefore {ts : List Terminal} (hg : isOrderly goals = true)
    (h : moveBefore goals ts = .take count next) : isOrderly next = true := by
  induction goals with
  | nil => cases h
  | cons g goals ih =>
    simp only [isOrderly, isOrderlyBefore, Option.or_none, Bool.and_eq_true] at hg
    obtain ⟨⟨-, hr⟩, hgoals⟩ := hg
    rw [moveBefore_cons] at h
    split at h
    · cases h
    · exact ih hgoals h
    · next hs =>
      obtain ⟨-, rfl⟩ := Move.take.inj h
      rw [isOrderly, isOrderlyBefore_append, Option.or_none, isOrderlyBefore_of_step hr hs]
      exact hgoals

/-- **What is left of orderly goals is orderly.** -/
theorem isOrderly_of_left? {ts : List Terminal} (hg : isOrderly goals = true)
    (h : left? goals ts = some next) : isOrderly next = true := by
  fun_induction left? goals ts with
  | case1 goals =>
    obtain rfl := Option.some.inj h
    exact hg
  | case2 goals ts hne count next' hm ih => exact ih (isOrderly_of_moveBefore hg hm) h
  | case3 => cases h

/-- What closes a goal are terminals that can be there and are not looked for from in front. -/
theorem notMem_of_mem_closing (hg : g.isSound = true) {t : Terminal} (ht : t ∈ closing g) :
    t ∉ .fault :: soughtBehind := by
  cases g
  case expect wanted missing =>
    cases wanted with
    | nil => cases hg
    | cons w ws =>
      obtain rfl : t = w := by simpa [closing] using ht
      exact of_decide_eq_true hg
  case group outer =>
    rw [List.eq_of_mem_replicate ht]
    decide
  all_goals
    revert t
    simp only [closing]
    decide

theorem notMem_of_mem_completion (hg : isOrderlyBefore t? goals = true) {t : Terminal}
    (ht : t ∈ completion goals) : t ∉ .fault :: soughtBehind := by
  induction goals with
  | nil => cases ht
  | cons g goals ih =>
    simp only [isOrderlyBefore, Bool.and_eq_true] at hg
    rw [completion, List.flatMap_cons, List.mem_append] at ht
    rcases ht with ht | ht
    · exact notMem_of_mem_closing hg.1.1 ht
    · exact ih hg.2 ht

end SqlChecker.Goal
