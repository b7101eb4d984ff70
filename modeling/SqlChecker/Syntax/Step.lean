import SqlChecker.Syntax.Goal

/-! # Steps

What is to be done about a goal depends on at most three terminals: the next one, and two beyond it
where a join or a negated predicate might not be complete. A goal is either given up, skipped
because it may be matched by nothing, or begun: then one to three terminals are taken, and other
goals stand for what is left of it.

The main statement says that a goal begun has a terminal to begin with and takes at least one, so
that matching a list of terminals ends. -/
namespace SqlChecker

/-- What is done about a goal. -/
inductive Step where
  /-- Nothing here matches the goal. -/
  | fail (e : SyntaxError)
  /-- The goal is matched by nothing. -/
  | skip
  /-- So many terminals are matched, and these goals are left. -/
  | take (count : Nat) (next : List Goal)
  deriving DecidableEq, Repr

namespace Step

/-- Takes one terminal, if it begins the goal and so leaves these goals. -/
def begin? (missing : SyntaxError) : Option (List Goal) → Step
  | some next => take 1 next
  | none => fail missing

/-- The same step, with these goals behind the ones it leaves. -/
def before (goals : List Goal) : Step → Step
  | take count next => take count (next ++ goals)
  | s => s

end Step

namespace Goal
open Step

/-- The next terminal is this keyword. -/
@[simp] abbrev isKeyword (t : Option Terminal) (k : Keyword) : Prop := t = some (.keyword k)

/-- The next terminal is this structural character. -/
@[simp] abbrev isMark (t : Option Terminal) (p : Punctuation) : Prop := t = some (.punctuation p)

/-- The next terminal is this operator. -/
@[simp] abbrev isOperator (t : Option Terminal) (op : Operator) : Prop := t = some (.operator op)

/-- The next terminal, if there is one, ends a definition. -/
def endsDefinition : Option Terminal → Bool
  | none => true
  | some (.punctuation .comma) | some (.punctuation .rightParen) => true
  | some (.punctuation .semicolon) => true
  | _ => false

/-- The next terminal, if there is one, ends a statement. -/
def endsStatement : Option Terminal → Bool
  | none => true
  | some (.punctuation .semicolon) => true
  | _ => false

/-- The keywords that begin a constraint of a table to be created. -/
def tableConstraintKeywords : List Keyword := [.PRIMARY, .FOREIGN, .UNIQUE, .CONSTRAINT]

/-- The keywords that begin a part of a table which is to be dropped and is no column. -/
def removedPartKeywords : List Keyword := [.CONSTRAINT, .PRIMARY, .FOREIGN, .INDEX]

/-- The next terminal is one of these keywords. -/
def isAnyKeyword (t : Option Terminal) (ks : List Keyword) : Bool :=
  t.any fun t => t ∈ ks.map Terminal.keyword

/-- What is left of a name after its first terminal. -/
def nameAfter? (t : Terminal) : Option (List Goal) :=
  if t.isName then some [qualifier] else none

/-- What is left of a primary after its first terminal. -/
def primaryAfter? : Terminal → Option (List Goal)
  | .identifier _ => some [applied]
  | .number | .string | .keyword .NULL | .operator .star => some []
  | .punctuation .leftParen =>
      some (logical .groupedExpression ++ [mark .rightParen .groupedClose])
  | _ => none

/-- What is left of an expression after its first terminal. -/
def expressionAfter? (missing : SyntaxError) : Terminal → Option (List Goal)
  | .operator .plus | .operator .minus => some [primary missing, suffix]
  | t => (primaryAfter? t).map (· ++ [suffix])

/-- What is left of a value after its first terminal. -/
def valueAfter? (missing : SyntaxError) : Terminal → Option (List Goal)
  | .operator .plus | .operator .minus => some [number missing]
  | .number | .string | .keyword .NULL | .keyword .DEFAULT => some []
  | _ => none

/-- What is left of a predicate that may be negated after the word that names it. -/
def predicateAfter? : Terminal → Option (List Goal)
  | .keyword .IN => some [listAfterIn]
  | .keyword .LIKE => some [expression .operand]
  | .keyword .BETWEEN => some
      [expression .lowerBound, keyword .AND .boundsAnd, expression .upperBound]
  | _ => none

/-- What is left of a constraint of a column after its first terminal. A terminal that begins none
is a constraint by itself, and so is a group in parentheses. -/
def constraintAfter : Terminal → List Goal
  | .keyword .NOT => [keyword .NULL .nullAfterNot]
  | .keyword .DEFAULT => [value .defaultValue]
  | .keyword .PRIMARY => [optional [.keyword .KEY]]
  | .keyword .REFERENCES => [name .referencedTable, referencedColumn, referenceActions]
  | .punctuation .leftParen => [group 0]
  | _ => []

/-- What is left of an action on a change of a referenced row after its first terminal. -/
def referenceActionAfter? : Terminal → Option (List Goal)
  | .keyword .CASCADE | .keyword .RESTRICT => some []
  | .keyword .SET => some [expect [.keyword .NULL, .keyword .DEFAULT] .setAction]
  | .identifier .no => some [expect [.identifier .action] .noAction]
  | _ => none

/-- What is done about a suffix. `NOT` belongs to it only before a predicate that may be negated. -/
def stepSuffix (first second : Option Terminal) : Step :=
  if isKeyword first .NOT then
    match second.bind predicateAfter? with
    | some next => take 2 next
    | none => skip
  else if isKeyword first .IS then take 1 [nullTest]
  else if first.any Terminal.isOperator then take 1 [expression .operand]
  else match first.bind predicateAfter? with
    | some next => take 1 next
    | none => skip

/-- What is done about further joins. A join that is not complete is none. -/
def stepJoins (first second third : Option Terminal) : Step :=
  if isKeyword first .JOIN then take 1 joined
  else if isKeyword first .INNER ∧ isKeyword second .JOIN then take 2 joined
  else if isKeyword first .LEFT ∨ isKeyword first .RIGHT then
    if isKeyword second .JOIN then take 2 joined
    else if isKeyword second .OUTER ∧ isKeyword third .JOIN then take 3 joined
    else skip
  else skip

/-- What is done about a group in parentheses. It may hold anything, and ends with its text if it
is never closed. -/
def stepGroup (outer : Nat) : Option Terminal → Step
  | none => skip
  | some (.punctuation .leftParen) => take 1 [group (outer + 1)]
  | some (.punctuation .rightParen) => match outer with
    | 0 => take 1 []
    | outer + 1 => take 1 [group outer]
  | some _ => take 1 [group outer]

/-- What is done about a constraint of a column. -/
def stepConstraint : Option Terminal → Step
  | none => skip
  | some t => take 1 (constraintAfter t)

/-- What is done about a goal before these terminals. -/
def step (first second third : Option Terminal) : Goal → Step
  | statement => match first with
    | none => fail .emptyStatement
    | some t => begin? .unknownStatement ((body? t).map (· ++ [terminator]))
  | expect wanted missing => if first.any (· ∈ wanted) then take 1 [] else fail missing
  | optional wanted => if first.any (· ∈ wanted) then take 1 [] else skip
  | terminator =>
    if first = none then skip
    else if isMark first .semicolon then take 1 []
    else fail .terminator
  | name missing => begin? missing (first.bind nameAfter?)
  | qualifier => if isMark first .dot then take 1 [qualified] else skip
  | qualified =>
    if first.any Terminal.isName ∨ isOperator first .star then take 1 [] else fail .qualifiedName
  | otherName =>
    if isKeyword first .AS then take 1 [name .aliasName]
    else if first.any Terminal.isIdentifier then take 1 []
    else skip
  | expression missing => begin? missing (first.bind (expressionAfter? missing))
  | primary missing => begin? missing (first.bind primaryAfter?)
  | applied =>
    if isMark first .leftParen then take 1 [arguments]
    else if isMark first .dot then take 1 [qualified]
    else skip
  | suffix => stepSuffix first second
  | arguments =>
    if isMark first .rightParen then take 1 []
    else if isOperator first .star then take 1 [mark .rightParen .argumentsClose]
    else begin? .argument ((first.bind (expressionAfter? .argument)).map
      (· ++ [moreArguments, mark .rightParen .argumentsClose]))
  | moreArguments =>
    if isMark first .comma then take 1 [expression .argumentAfterComma, moreArguments] else skip
  | nullTest =>
    if isKeyword first .NOT then take 1 [keyword .NULL .nullAfterIsNot]
    else if isKeyword first .NULL then take 1 []
    else fail .nullAfterIs
  | listAfterIn =>
    if isMark first .leftParen then
      if isMark second .leftParen then take 1 (row ++ [mark .rightParen .listAfterInClose])
      else take 1 rowBody
    else fail .listAfterIn
  | moreConditions =>
    if isKeyword first .AND ∨ isKeyword first .OR then
      take 1 [expression .conditionOperand, moreConditions]
    else skip
  | value missing => begin? missing (first.bind (valueAfter? missing))
  | moreValues =>
    if isMark first .comma then take 1 [value .valueAfterComma, moreValues] else skip
  | columns =>
    if isOperator first .star then take 1 []
    else begin? .column ((first.bind (expressionAfter? .column)).map
      (· ++ [otherName, moreColumns]))
  | moreColumns =>
    if isMark first .comma then take 1 [expression .columnAfterComma, otherName, moreColumns]
    else skip
  | source =>
    if endsStatement first then skip
    else if isKeyword first .FROM then
      take 1 [name .sourceTable, otherName, joins, whereClause, groupClause, orderClause,
        limitClause]
    else fail .source
  | joins => stepJoins first second third
  | whereClause => if isKeyword first .WHERE then take 1 condition else skip
  | groupClause =>
    if isKeyword first .GROUP then take 1 [keyword .BY .groupBy, columns, havingClause] else skip
  | havingClause => if isKeyword first .HAVING then take 1 condition else skip
  | orderClause =>
    if isKeyword first .ORDER then
      take 1 (keyword .BY .orderBy :: orderColumn .orderColumn ++ [moreOrderColumns])
    else skip
  | moreOrderColumns =>
    if isMark first .comma then take 1 (orderColumn .orderColumnAfterComma ++ [moreOrderColumns])
    else skip
  | limitClause =>
    if isKeyword first .LIMIT then take 1 [number .limit, limitExtent] else skip
  | limitExtent =>
    if isKeyword first .OFFSET then take 1 [number .offset]
    else if isMark first .comma then take 1 [number .limitAfterComma]
    else skip
  | columnList =>
    if isMark first .leftParen then take 1 [columns, mark .rightParen .columnListClose] else skip
  | moreRows => if isMark first .comma then take 1 (row ++ [moreRows]) else skip
  | moreAssignments =>
    if isMark first .comma then take 1 (assignment .assignmentAfterComma ++ [moreAssignments])
    else skip
  | definition =>
    if isAnyKeyword first tableConstraintKeywords then take 1 [tableConstraint]
    else begin? .definedColumn ((first.bind nameAfter?).map (· ++ columnBody))
  | moreDefinitions =>
    if isMark first .comma then take 1 [definition, moreDefinitions] else skip
  | tableConstraint =>
    if endsDefinition first then skip
    else if isMark first .leftParen then take 1 [group 0, tableConstraint]
    else take 1 [tableConstraint]
  | group outer => stepGroup outer first
  | dataType => if first.any Terminal.isIdentifier then take 1 [typeLength] else fail .dataType
  | typeLength =>
    if isMark first .leftParen then
      take 1 [number .typeLength, typeScale, mark .rightParen .typeClose]
    else skip
  | typeScale => if isMark first .comma then take 1 [number .typeScale] else skip
  | constraint => stepConstraint first
  | constraints =>
    if endsDefinition first then skip else (stepConstraint first).before [constraints]
  | referencedColumn =>
    if isMark first .leftParen then
      take 1 [name .referencedColumn, mark .rightParen .referencedClose]
    else skip
  | referenceActions =>
    if isKeyword first .ON then
      take 1 [expect [.keyword .DELETE, .keyword .UPDATE] .referenceEvent, referenceAction,
        referenceActions]
    else skip
  | referenceAction => begin? .referenceAction (first.bind referenceActionAfter?)
  | alteration =>
    if isKeyword first .ADD then take 1 [addition]
    else if isKeyword first .DROP then take 1 [removal]
    else fail .alteration
  | addition =>
    if isKeyword first .COLUMN then take 1 columnDefinition
    else if isAnyKeyword first tableConstraintKeywords then take 1 [untilTerminator]
    else begin? .definedColumn ((first.bind nameAfter?).map (· ++ columnBody))
  | removal =>
    if isKeyword first .COLUMN then take 1 [name .removedColumn]
    else if isAnyKeyword first removedPartKeywords then take 1 [untilTerminator]
    else begin? .removedName (first.bind nameAfter?)
  | untilTerminator => if endsStatement first then skip else take 1 [untilTerminator]

/-- One constraint is begun by any terminal. -/
theorem stepConstraint_eq_take {first : Option Terminal} {count : Nat} {next : List Goal}
    (h : stepConstraint first = .take count next) :
    ∃ t, first = some t ∧ count = 1 ∧ next = constraintAfter t := by
  cases first with
  | none => cases h
  | some t =>
    obtain ⟨rfl, rfl⟩ := Step.take.inj h
    exact ⟨t, rfl, rfl, rfl⟩

theorem stepConstraint_ne_fail (first : Option Terminal) (e : SyntaxError) :
    stepConstraint first ≠ .fail e := by
  cases first <;> simp [stepConstraint]

/-- Constraints go on with what one constraint leaves, up to the end of the definition. -/
theorem step_constraints_eq_take {first second third : Option Terminal} {count : Nat}
    {next : List Goal} (h : constraints.step first second third = .take count next) :
    ∃ t, first = some t ∧ endsDefinition first = false ∧ count = 1 ∧
      next = constraintAfter t ++ [constraints] := by
  rw [step] at h
  split at h
  · cases h
  · next hends =>
    cases first with
    | none => cases h
    | some t =>
      obtain ⟨rfl, rfl⟩ := Step.take.inj h
      exact ⟨t, rfl, Bool.eq_false_iff.mpr hends, rfl, rfl⟩

theorem step_constraints_ne_fail (first second third : Option Terminal) (e : SyntaxError) :
    constraints.step first second third ≠ .fail e := by
  rw [step]
  split
  · simp
  · cases first <;> simp [stepConstraint, before]

theorem begin?_eq_take {missing : SyntaxError} {next? : Option (List Goal)} {count : Nat}
    {next : List Goal} (h : begin? missing next? = .take count next) :
    count = 1 ∧ next? = some next := by
  cases next? <;> simp_all [begin?]

/-- A goal is begun only where a terminal is, and takes at least that one. -/
theorem step_eq_take {first second third : Option Terminal} {g : Goal} {count : Nat}
    {next : List Goal} (h : g.step first second third = .take count next) :
    first ≠ none ∧ 0 < count := by
  cases first with
  | none => cases g <;> simp [step, begin?, stepSuffix, stepJoins, stepGroup, stepConstraint,
      endsStatement, endsDefinition, isAnyKeyword] at h
  | some t =>
    refine ⟨by simp, ?_⟩
    cases g <;> simp only [step, stepSuffix, stepJoins, stepGroup, stepConstraint, before] at h <;>
      grind [→ begin?_eq_take]

end Goal
end SqlChecker
