import SqlChecker.Proofs.Grammar.Expression
import SqlChecker.Syntax.Step

/-! # The grammar of definitions

The statements that create and alter tables.  Constraints that the grammar does not know are passed
over, a terminal at a time or a group in parentheses at once, and so the grammar has to say where a
constraint that it does know commits: `avoiding` stands wherever a part may not be ended before a
terminal that would go on with it.
-/
namespace SqlChecker.Grammar
open Terminal Computability

/-! ### Groups -/

/-- Terminals in which every parenthesis is matched. -/
inductive Nested : List Terminal → Prop where
  | nil : Nested []
  | cons {t : Terminal} {ts : List Terminal}
      (ht : t ∉ [Terminal.punctuation .leftParen, .punctuation .rightParen]) (h : Nested ts) :
      Nested (t :: ts)
  | group {inner ts : List Terminal} (hinner : Nested inner) (h : Nested ts) :
      Nested (.punctuation .leftParen :: inner ++ .punctuation .rightParen :: ts)

def nested : Language Terminal := {w | Nested w}

/-- A parenthesis up to the one that matches it. -/
def group : Language Terminal := parenthesized nested

/-- All that follows a parenthesis which is never matched. -/
def unclosed : Language Terminal := {ts | ∀ w rest, ts = w ++ rest → w ∉ nested * mark .rightParen}

/-- A parenthesis that is never matched, and all that follows it. -/
def openGroup : Language Terminal := mark .leftParen * unclosed

/-- A terminal that neither ends a definition nor belongs to a group. -/
def isPlain (t : Terminal) : Bool :=
  !among [.punctuation .leftParen, .punctuation .rightParen, .punctuation .comma,
    .punctuation .semicolon] t

/-- What is passed over in a constraint of a table. -/
def skipped : Language Terminal := (group + anyOf isPlain)∗

/-- Anything before the end of a statement. -/
def untilSemicolon : Language Terminal := (anyOf fun t => !among [.punctuation .semicolon] t)∗

/-! ### Columns -/

/-- What is to be done when a referenced row changes. -/
def referenceAction : Language Terminal :=
  keyword .ON * (keyword .DELETE + keyword .UPDATE) *
    (keyword .CASCADE + keyword .RESTRICT + keyword .SET * (keyword .NULL + keyword .DEFAULT) +
      anyOf (among [.identifier .no]) * anyOf (among [.identifier .action]))

/-- What follows the name of a referenced table, before further constraints `C`: a column, and
actions. -/
def referencedOf (C : Language Terminal) : Language Terminal :=
  parenthesized name * (referenceAction∗ * avoiding (among [.keyword .ON]) C) +
    avoiding (among [.punctuation .leftParen])
      (referenceAction∗ * avoiding (among [.keyword .ON]) C)

/-- What follows `REFERENCES`, before further constraints `C`. -/
def referenceOf (C : Language Terminal) : Language Terminal :=
  anyOf isName * (mark .dot * (anyOf isName + star) * referencedOf C +
    avoiding (among [.punctuation .dot]) (referencedOf C))

/-- The words that begin a constraint of a column. -/
def constraintWords : List Terminal :=
  [.keyword .NOT, .keyword .DEFAULT, .keyword .PRIMARY, .keyword .UNIQUE, .keyword .REFERENCES]

/-- A terminal that is a constraint by itself, because none begins with it. -/
def isOther (t : Terminal) : Bool := isPlain t && !among constraintWords t

/-- The rule of the constraints of a column, which may end with a word of `last`. -/
def constraintsOf (last C : Language Terminal) : Language Terminal :=
  optional last +
    keyword .NOT * keyword .NULL * C +
    keyword .DEFAULT * value * C +
    keyword .PRIMARY * optional (keyword .KEY) * C +
    keyword .UNIQUE * C +
    keyword .REFERENCES * referenceOf C +
    group * C +
    anyOf isOther * C

theorem constraintsOf_mono (last : Language Terminal) : Monotone (constraintsOf last) := by
  intro C D h
  have hactions : referenceAction∗ * avoiding (among [.keyword .ON]) C ≤
      referenceAction∗ * avoiding (among [.keyword .ON]) D := by
    gcongr
    exact avoiding_mono _ h
  have hreferenced : referencedOf C ≤ referencedOf D := by
    unfold referencedOf
    gcongr
    exact avoiding_mono _ hactions
  have hreference : referenceOf C ≤ referenceOf D := by
    unfold referenceOf
    gcongr
    exact avoiding_mono _ hreferenced
  unfold constraintsOf
  gcongr

/-- The constraints of a column, the last of which may be a word of `last`. -/
def constraints (last : Language Terminal) : Language Terminal :=
  OrderHom.lfp ⟨constraintsOf last, constraintsOf_mono last⟩

theorem constraints_eq (last : Language Terminal) :
    constraintsOf last (constraints last) = constraints last :=
  OrderHom.map_lfp ⟨constraintsOf last, constraintsOf_mono last⟩

/-- The length of a data type. -/
def typeLength : Language Terminal := parenthesized (number * optional (mark .comma * number))

/-- The definition of a column. -/
def column (last : Language Terminal) : Language Terminal :=
  name * anyOf isIdentifier * (typeLength * constraints last +
    avoiding (among [.punctuation .leftParen]) (constraints last))

/-! ### Statements -/

/-- The keywords that begin a constraint of a table. -/
def isTableConstraint : Terminal → Bool := among (Goal.tableConstraintKeywords.map .keyword)

/-- A column or a constraint of a table to be created. -/
def definition : Language Terminal :=
  anyOf isTableConstraint * skipped + avoiding isTableConstraint (column 0)

def create : Language Terminal :=
  keyword .CREATE * keyword .TABLE * name * parenthesized (list definition)

/-- What is added to a table that is altered. -/
def addition (last : Language Terminal) : Language Terminal :=
  keyword .COLUMN * column last + anyOf isTableConstraint * untilSemicolon +
    avoiding (fun t => among [.keyword .COLUMN] t || isTableConstraint t) (column last)

/-- The keywords that begin a part to be dropped which is no column. -/
def isRemovedPart : Terminal → Bool := among (Goal.removedPartKeywords.map .keyword)

/-- What is dropped from a table that is altered. -/
def removal : Language Terminal :=
  keyword .COLUMN * name + anyOf isRemovedPart * untilSemicolon +
    avoiding (fun t => among [.keyword .COLUMN] t || isRemovedPart t) name

/-- The constraints of a column that is added may end with a word of `last`. -/
def alter (last : Language Terminal) : Language Terminal :=
  keyword .ALTER * keyword .TABLE * name * (keyword .ADD * addition last + keyword .DROP * removal)

/-- A statement that creates or alters a table. -/
def tableStatement (last : Language Terminal) : Language Terminal := create + alter last

end SqlChecker.Grammar
