/-! # Syntax errors

The ways in which a statement can break off. Nearly all of them name what the grammar wants at the
place of the error and does not find; the constructors are named for it. -/
namespace SqlChecker

/-- What a statement lacks where it breaks off. -/
inductive SyntaxError where
  | emptyStatement | unknownStatement | terminator | qualifiedName
  | column | columnAfterComma | aliasName | source | sourceTable | joinTable | joinCondition
  | groupBy | orderBy | orderColumn | orderColumnAfterComma | limit | offset | limitAfterComma
  | insertInto | insertTable | columnListClose | insertValues | updateTable | updateSet
  | assignedColumn | assignmentAfterComma | assignmentSign | assignedExpression | deleteFrom
  | deleteTable
  | condition | conditionOperand | groupedExpression | groupedClose | argument
  | argumentAfterComma | argumentsClose | nullAfterIs | nullAfterIsNot | listAfterIn
  | listAfterInClose | lowerBound | boundsAnd | upperBound | operand
  | valuesOpen | value | valueAfterComma | valuesClose
  | createTable | createdName | definitionsOpen | definitionsClose | definedColumn | dataType
  | typeLength | typeScale | typeClose | nullAfterNot | defaultValue | referencedTable
  | referencedColumn | referencedClose | referenceEvent | referenceAction | setAction | noAction
  | alterTable | alteredName | alteration | removedColumn | removedName | dropTable | droppedName
  deriving DecidableEq, Repr

/-- What is said of an error at a token with the text `found`, which only the error at an unknown
statement quotes. -/
def SyntaxError.message (found : String) : SyntaxError → String
  | emptyStatement => "Empty SQL statement"
  | unknownStatement => "Unexpected keyword at start of statement: " ++ found
  | terminator => "Expected ';' at the end of SQL statement"
  | qualifiedName => "Expected identifier or * after '.'"
  | column => "Expected column expression"
  | columnAfterComma => "Expected column expression after comma"
  | aliasName => "Expected alias name after AS"
  | source => "Expected 'FROM' after SELECT column list"
  | sourceTable => "Expected table name"
  | joinTable => "Expected table name after JOIN"
  | joinCondition => "Expected 'ON' after JOIN table"
  | groupBy => "Expected 'BY' after GROUP"
  | orderBy => "Expected 'BY' after ORDER"
  | orderColumn => "Expected column name in ORDER BY"
  | orderColumnAfterComma => "Expected column name after comma in ORDER BY"
  | limit => "Expected number after LIMIT"
  | offset => "Expected number after OFFSET"
  | limitAfterComma => "Expected number after ',' in LIMIT"
  | insertInto => "Expected 'INTO' after INSERT"
  | insertTable => "Expected table name after INSERT INTO"
  | columnListClose => "Expected ')' after column list"
  | insertValues => "Expected 'VALUES' keyword"
  | updateTable => "Expected table name after UPDATE"
  | updateSet => "Expected 'SET' after table name"
  | assignedColumn => "Expected column name in assignment"
  | assignmentAfterComma => "Expected assignment after comma"
  | assignmentSign => "Expected '=' in assignment"
  | assignedExpression => "Expected expression in assignment"
  | deleteFrom => "Expected 'FROM' after DELETE"
  | deleteTable => "Expected table name after DELETE FROM"
  | condition => "Expected expression in condition"
  | conditionOperand => "Expected expression after AND/OR"
  | groupedExpression => "Expected expression after '('"
  | groupedClose => "Expected ')' after expression"
  | argument => "Expected function argument"
  | argumentAfterComma => "Expected function argument after comma"
  | argumentsClose => "Expected ')' after function arguments"
  | nullAfterIs => "Expected NULL after IS"
  | nullAfterIsNot => "Expected NULL after IS NOT"
  | listAfterIn => "Expected '(' after IN"
  | listAfterInClose => "Expected ')' after IN list"
  | lowerBound => "Expected lower bound expression after BETWEEN"
  | boundsAnd => "Expected AND after BETWEEN lower bound"
  | upperBound => "Expected upper bound expression after AND"
  | operand => "Expected right hand expression after operator"
  | valuesOpen => "Expected '(' for values list"
  | value => "Expected value in values list"
  | valueAfterComma => "Expected value after comma in values list"
  | valuesClose => "Expected ')' after values list"
  | createTable => "Expected 'TABLE' after CREATE"
  | createdName => "Expected table name after CREATE TABLE"
  | definitionsOpen => "Expected '(' after table name"
  | definitionsClose => "Expected ')' after column definitions"
  | definedColumn => "Expected column name in column definition"
  | dataType => "Expected data type"
  | typeLength => "Expected length/precision in data type specification"
  | typeScale => "Expected scale after comma in data type specification"
  | typeClose => "Expected ')' after type length/precision"
  | nullAfterNot => "Expected NULL after NOT in column constraint"
  | defaultValue => "Expected value after DEFAULT in column constraint"
  | referencedTable => "Expected table name after REFERENCES"
  | referencedColumn => "Expected column name in references"
  | referencedClose => "Expected ')' after referenced column"
  | referenceEvent => "Expected DELETE or UPDATE after ON in REFERENCES"
  | referenceAction => "Expected action after ON DELETE/UPDATE"
  | setAction => "Expected NULL or DEFAULT after SET"
  | noAction => "Expected ACTION after NO"
  | alterTable => "Expected 'TABLE' after ALTER"
  | alteredName => "Expected table name after ALTER TABLE"
  | alteration => "Expected 'ADD' or 'DROP' after table name in ALTER TABLE statement"
  | removedColumn => "Expected column name after DROP COLUMN"
  | removedName => "Expected column name after DROP"
  | dropTable => "Expected 'TABLE' after DROP"
  | droppedName => "Expected table name after DROP TABLE"

end SqlChecker
