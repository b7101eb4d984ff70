import SqlChecker.Proofs.Grammar.Expression

/-! # The grammar of statements

The statements that query, change and drop tables.  Those that create and alter tables have a
grammar of their own, since they let pass what they do not know.
-/
namespace SqlChecker.Grammar
open Terminal Computability

/-! ### Parts of a query -/

/-- A star alone, or expressions that may be given another name. -/
def columns : Language Terminal :=
  star + avoiding (among [.operator .star]) (list (expression * otherName))

def join : Language Terminal :=
  keyword .JOIN + keyword .INNER * keyword .JOIN +
    (keyword .LEFT + keyword .RIGHT) * optional (keyword .OUTER) * keyword .JOIN

/-- A table and those joined to it. -/
def tables : Language Terminal :=
  name * otherName * (join * (name * otherName * keyword .ON * condition))∗

def whereClause : Language Terminal := keyword .WHERE * condition

def groupClause : Language Terminal :=
  keyword .GROUP * keyword .BY * columns * optional (keyword .HAVING * condition)

def orderClause : Language Terminal :=
  keyword .ORDER * keyword .BY * list (name * optional (keyword .ASC + keyword .DESC))

def limitClause : Language Terminal :=
  keyword .LIMIT * number * optional (keyword .OFFSET * number + mark .comma * number)

/-- The tables of a query with all clauses after them. -/
def source : Language Terminal :=
  keyword .FROM * tables * optional whereClause * optional groupClause * optional orderClause *
    optional limitClause

/-! ### Statements -/

def select : Language Terminal := keyword .SELECT * columns * optional source

def insert : Language Terminal :=
  keyword .INSERT * keyword .INTO * name * optional (parenthesized columns) * keyword .VALUES *
    list row

/-- A column and its new value. -/
def assignment : Language Terminal := name * operator .equal * expression

def update : Language Terminal :=
  keyword .UPDATE * name * keyword .SET * list assignment * optional whereClause

def delete : Language Terminal := keyword .DELETE * keyword .FROM * name * optional whereClause

def drop : Language Terminal := keyword .DROP * keyword .TABLE * name

/-- A statement that queries, changes or drops a table. -/
def statement : Language Terminal := select + insert + update + delete + drop

/-! ### Ends of statements -/

/-- A statement, a semicolon, and anything at all after it. -/
def beforeSemicolon (L : Language Terminal) : Language Terminal :=
  {ts | ∃ w ∈ L, ∃ rest, ts = w ++ .punctuation .semicolon :: rest}

/-- A statement alone, or a statement, a semicolon, and anything at all after it. -/
def terminated (L : Language Terminal) : Language Terminal := L + beforeSemicolon L

variable {L M : Language Terminal} {t : Terminal} {ts : List Terminal} {k : Keyword}

theorem mem_beforeSemicolon_iff :
    ts ∈ beforeSemicolon L ↔ ∃ w ∈ L, ∃ rest, ts = w ++ .punctuation .semicolon :: rest :=
  Iff.rfl

theorem beforeSemicolon_add :
    beforeSemicolon (L + M) = beforeSemicolon L + beforeSemicolon M := by
  ext ts
  simp only [Language.mem_add, mem_beforeSemicolon_iff, or_and_right, exists_or]

theorem terminated_add : terminated (L + M) = terminated L + terminated M := by
  rw [terminated, beforeSemicolon_add]
  exact add_add_add_comm ..

theorem cons_mem_keyword_mul_iff : t :: ts ∈ keyword k * L ↔ t = .keyword k ∧ ts ∈ L := by
  simp [keyword, cons_mem_anyOf_mul_iff]

/-- The first keyword of a statement and what follows it. -/
theorem cons_mem_beforeSemicolon_iff :
    t :: ts ∈ beforeSemicolon (keyword k * L) ↔ t = .keyword k ∧ ts ∈ beforeSemicolon L := by
  simp only [mem_beforeSemicolon_iff, keyword, mem_among_singleton_mul_iff]
  constructor
  · rintro ⟨_, ⟨v, hv, rfl⟩, rest, h⟩
    obtain ⟨rfl, rfl⟩ := List.cons.inj h
    exact ⟨rfl, v, hv, rest, rfl⟩
  · rintro ⟨rfl, v, hv, rest, rfl⟩
    exact ⟨_, ⟨v, hv, rfl⟩, rest, rfl⟩

theorem cons_mem_terminated_iff :
    t :: ts ∈ terminated (keyword k * L) ↔ t = .keyword k ∧ ts ∈ terminated L := by
  simp only [terminated, Language.mem_add, cons_mem_keyword_mul_iff, cons_mem_beforeSemicolon_iff,
    and_or_left]

end SqlChecker.Grammar
