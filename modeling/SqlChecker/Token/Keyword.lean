/-! # Keywords

The words with a meaning of their own in a statement. Any other word is an identifier, also one
that some dialect reserves. A keyword may be written in any mixture of upper and lower case.
Constructors are spelled as the keywords are. -/
namespace SqlChecker

/-- A reserved word. -/
inductive Keyword where
  | SELECT | FROM | WHERE | GROUP | BY | HAVING | ORDER | ASC | DESC | LIMIT | OFFSET | AS
  | JOIN | LEFT | RIGHT | INNER | OUTER | ON
  | INSERT | INTO | VALUES | UPDATE | SET | DELETE
  | AND | OR | NOT | NULL | IS | IN | BETWEEN | LIKE
  | CREATE | TABLE | ALTER | DROP | COLUMN | ADD | INDEX
  | PRIMARY | KEY | FOREIGN | REFERENCES | CASCADE | RESTRICT | DEFAULT | UNIQUE | CONSTRAINT
  deriving DecidableEq, Repr

namespace Keyword

/-- The upper-case spelling. -/
def spelling : Keyword → String
  | SELECT => "SELECT"
  | FROM => "FROM"
  | WHERE => "WHERE"
  | GROUP => "GROUP"
  | BY => "BY"
  | HAVING => "HAVING"
  | ORDER => "ORDER"
  | ASC => "ASC"
  | DESC => "DESC"
  | LIMIT => "LIMIT"
  | OFFSET => "OFFSET"
  | AS => "AS"
  | JOIN => "JOIN"
  | LEFT => "LEFT"
  | RIGHT => "RIGHT"
  | INNER => "INNER"
  | OUTER => "OUTER"
  | ON => "ON"
  | INSERT => "INSERT"
  | INTO => "INTO"
  | VALUES => "VALUES"
  | UPDATE => "UPDATE"
  | SET => "SET"
  | DELETE => "DELETE"
  | AND => "AND"
  | OR => "OR"
  | NOT => "NOT"
  | NULL => "NULL"
  | IS => "IS"
  | IN => "IN"
  | BETWEEN => "BETWEEN"
  | LIKE => "LIKE"
  | CREATE => "CREATE"
  | TABLE => "TABLE"
  | ALTER => "ALTER"
  | DROP => "DROP"
  | COLUMN => "COLUMN"
  | ADD => "ADD"
  | INDEX => "INDEX"
  | PRIMARY => "PRIMARY"
  | KEY => "KEY"
  | FOREIGN => "FOREIGN"
  | REFERENCES => "REFERENCES"
  | CASCADE => "CASCADE"
  | RESTRICT => "RESTRICT"
  | DEFAULT => "DEFAULT"
  | UNIQUE => "UNIQUE"
  | CONSTRAINT => "CONSTRAINT"

/-- Every keyword, grouped by use: queries, joins, changes of data, predicates, definitions and
constraints. -/
def all : List Keyword :=
  [.SELECT, .FROM, .WHERE, .GROUP, .BY, .HAVING, .ORDER, .ASC, .DESC, .LIMIT, .OFFSET, .AS,
    .JOIN, .LEFT, .RIGHT, .INNER, .OUTER, .ON,
    .INSERT, .INTO, .VALUES, .UPDATE, .SET, .DELETE,
    .AND, .OR, .NOT, .NULL, .IS, .IN, .BETWEEN, .LIKE,
    .CREATE, .TABLE, .ALTER, .DROP, .COLUMN, .ADD, .INDEX,
    .PRIMARY, .KEY, .FOREIGN, .REFERENCES, .CASCADE, .RESTRICT, .DEFAULT, .UNIQUE, .CONSTRAINT]

theorem mem_all (k : Keyword) : k ∈ all := by
  cases k <;> decide

/-- The keyword that a word spells, in whatever case; letters outside the alphabet of the keywords
have no case here. -/
def ofWord? (word : List Char) : Option Keyword :=
  all.find? fun k => k.spelling.toList == word.map Char.toUpper

/-- Each keyword is read from its spelling, so no two share one. -/
theorem ofWord?_spelling (k : Keyword) : ofWord? k.spelling.toList = some k := by
  cases k <;> decide +kernel

theorem spelling_injective {k l : Keyword} (h : k.spelling = l.spelling) : k = l := by
  have := ofWord?_spelling k
  rw [h, ofWord?_spelling l] at this
  exact (Option.some.inj this).symm

/-- A word is a keyword exactly if it is the keyword's spelling in upper case. -/
theorem ofWord?_eq_some_iff {word : List Char} {k : Keyword} :
    ofWord? word = some k ↔ word.map Char.toUpper = k.spelling.toList := by
  have found {l : Keyword} (h : ofWord? word = some l) :
      l.spelling.toList = word.map Char.toUpper := by
    simpa using List.find?_some (p := fun k : Keyword => k.spelling.toList == _) h
  constructor
  · exact fun h => (found h).symm
  · intro h
    cases hf : ofWord? word with
    | none => simpa [h] using List.find?_eq_none.mp hf k (mem_all k)
    | some l =>
      have hl := found hf
      rw [h] at hl
      exact congrArg some (spelling_injective (String.toList_injective hl))

end Keyword
end SqlChecker
