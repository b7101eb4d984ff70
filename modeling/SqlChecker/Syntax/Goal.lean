import SqlChecker.Syntax.Error
import SqlChecker.Syntax.Terminal

/-! # Goals

A goal is a part of a statement that is still to be matched, and a list of goals is what is to be
matched next, in order. The parts of a statement that repeat have a goal for their further
repetitions (`moreColumns`, `joins`, `constraints`), which may be matched by nothing.

The second half of the module names the longer parts by the goals they are made of. -/
namespace SqlChecker

/-- A part of a statement. Where one begins with something that may be missing, the goal says which
error that is. -/
inductive Goal where
  /-- A whole statement with its terminator. -/
  | statement
  /-- One of the terminals. -/
  | expect (wanted : List Terminal) (missing : SyntaxError)
  /-- One of the terminals, or nothing. -/
  | optional (wanted : List Terminal)
  /-- A semicolon, or the end. -/
  | terminator
  /-- An identifier or a keyword, perhaps qualified. -/
  | name (missing : SyntaxError)
  /-- The second half of a qualified name, or nothing. -/
  | qualifier
  /-- What follows the dot of a qualified name. -/
  | qualified
  /-- Another name for a column or a table, or nothing. -/
  | otherName
  | expression (missing : SyntaxError)
  /-- An expression without sign and without suffix. -/
  | primary (missing : SyntaxError)
  /-- What follows an identifier in an expression: arguments, a qualifier, or nothing. -/
  | applied
  /-- The operator or predicate after a primary, with its operands, or nothing. -/
  | suffix
  /-- The arguments of a function, after the parenthesis that opens them. -/
  | arguments
  | moreArguments
  /-- What follows `IS`. -/
  | nullTest
  /-- What follows `IN`. -/
  | listAfterIn
  /-- Further expressions joined by `AND` or `OR`. -/
  | moreConditions
  /-- A literal value. -/
  | value (missing : SyntaxError)
  | moreValues
  | columns
  | moreColumns
  /-- The tables of a query and all clauses after them, or nothing. -/
  | source
  | joins
  | whereClause
  | groupClause
  | havingClause
  | orderClause
  | moreOrderColumns
  | limitClause
  /-- The second number of a limit, or nothing. -/
  | limitExtent
  /-- The columns to be filled by an insertion, or nothing. -/
  | columnList
  | moreRows
  | moreAssignments
  /-- A column or a constraint of a table to be created. -/
  | definition
  | moreDefinitions
  /-- The rest of a constraint of a table: all up to where the next definition may begin. -/
  | tableConstraint
  /-- The rest of a group in parentheses, `outer` further groups around it being open as well. -/
  | group (outer : Nat)
  | dataType
  | typeLength
  | typeScale
  /-- One constraint of a column, whatever it begins with. -/
  | constraint
  /-- The constraints of a column. -/
  | constraints
  | referencedColumn
  | referenceActions
  | referenceAction
  /-- What is done to a table that is altered. -/
  | alteration
  /-- What follows `ADD`. -/
  | addition
  /-- What follows `DROP`. -/
  | removal
  /-- All up to the terminator. -/
  | untilTerminator
  deriving DecidableEq, Repr

namespace Goal

/-- A keyword that must come next. -/
def keyword (k : Keyword) (missing : SyntaxError) : Goal := expect [.keyword k] missing

/-- A structural character that must come next. -/
def mark (p : Punctuation) (missing : SyntaxError) : Goal := expect [.punctuation p] missing

/-- A number that must come next. -/
def number (missing : SyntaxError) : Goal := expect [.number] missing

/-- Expressions joined by `AND` and `OR`. -/
def logical (missing : SyntaxError) : List Goal := [expression missing, moreConditions]

/-- A condition of a clause. -/
def condition : List Goal := logical .condition

/-- The values of a row, after the parenthesis that opens it. -/
def rowBody : List Goal := [value .value, moreValues, mark .rightParen .valuesClose]

/-- A row of values. -/
def row : List Goal := mark .leftParen .valuesOpen :: rowBody

/-- A value for a column. -/
def assignment (missing : SyntaxError) : List Goal :=
  [name missing, expect [.operator .equal] .assignmentSign, expression .assignedExpression]

/-- A column to order by, with its direction. -/
def orderColumn (missing : SyntaxError) : List Goal :=
  [name missing, optional [.keyword .ASC, .keyword .DESC]]

/-- What follows the name of a column that is defined. -/
def columnBody : List Goal := [dataType, constraints]

/-- The definition of a column. -/
def columnDefinition : List Goal := name .definedColumn :: columnBody

/-- What follows a join. -/
def joined : List Goal :=
  [name .joinTable, otherName, keyword .ON .joinCondition] ++ condition ++ [joins]

/-- What follows the word that a statement begins with, if it is one of the seven that may. -/
def body? : Terminal → Option (List Goal)
  | .keyword .SELECT => some [columns, source]
  | .keyword .INSERT => some (
      [keyword .INTO .insertInto, name .insertTable, columnList, keyword .VALUES .insertValues] ++
        row ++ [moreRows])
  | .keyword .UPDATE => some (
      [name .updateTable, keyword .SET .updateSet] ++ assignment .assignedColumn ++
        [moreAssignments, whereClause])
  | .keyword .DELETE => some [keyword .FROM .deleteFrom, name .deleteTable, whereClause]
  | .keyword .CREATE => some
      [keyword .TABLE .createTable, name .createdName, mark .leftParen .definitionsOpen,
        definition, moreDefinitions, mark .rightParen .definitionsClose]
  | .keyword .ALTER => some [keyword .TABLE .alterTable, name .alteredName, alteration]
  | .keyword .DROP => some [keyword .TABLE .dropTable, name .droppedName]
  | _ => none

end Goal
end SqlChecker
