import SqlChecker.Lexer
import SqlChecker.Proofs.Grammar.Depth
import SqlChecker.Proofs.Recognition.Definition
import SqlChecker.Proofs.Verdict

/-! # Balanced parentheses

Unless it alters a table, a statement has all its parentheses matched.  Every part of the grammar
keeps to that: terminals that are no parentheses, parts one after the other, and parts in
parentheses.  What a statement takes is a word of the grammar, and so its tokens are balanced up to
where it ends (`exists_endsAt_isBalanced`).
-/
namespace SqlChecker

/-- No prefix closes more parentheses than it opens, and in all as many are closed as are opened. -/
structure IsBalanced (tokens : List Token) : Prop where
  count_take_le (n : Nat) : (tokens.take n).countP (·.kind = .punctuation .rightParen) ≤
    (tokens.take n).countP (·.kind = .punctuation .leftParen)
  count_eq : tokens.countP (·.kind = .punctuation .rightParen) =
    tokens.countP (·.kind = .punctuation .leftParen)

/-- The first statement of some tokens ends at a place: its first word is known, and what this word
asks for is matched by the tokens between it and the place. -/
def EndsAt (tokens : List Token) (position : Nat) : Prop :=
  position ≤ tokens.length ∧ ∃ first others body, tokens = first :: others ∧
    Goal.body? first.terminal = some body ∧
    Goal.run body (others.map Token.terminal) = .accepted (terminalsFrom tokens position)

/-! ### The grammar of nested words -/

namespace Grammar
open Terminal Computability

variable {L M : Language Terminal} {F : Terminal → Bool} {v w : List Terminal}

theorem Nested.append (hv : Nested v) (hw : Nested w) : Nested (v ++ w) := by
  induction hv with
  | nil => exact hw
  | cons ht _ ih => exact .cons ht ih
  | group hinner _ _ ih =>
    rw [List.append_assoc, List.cons_append, List.cons_append]
    exact .group hinner ih

theorem one_le_nested : 1 ≤ nested := by
  rintro w (rfl : w = [])
  exact .nil

theorem mul_le_nested (hL : L ≤ nested) (hM : M ≤ nested) : L * M ≤ nested := by
  rintro w ⟨a, ha, b, hb, rfl⟩
  exact (hL ha).append (hM hb)

theorem kstar_le_nested (hL : L ≤ nested) : L∗ ≤ nested :=
  kstar_le_of_mul_le_left one_le_nested (mul_le_nested le_rfl hL)

theorem optional_le_nested (hL : L ≤ nested) : optional L ≤ nested :=
  add_le one_le_nested hL

theorem avoiding_le_nested (hL : L ≤ nested) : avoiding F L ≤ nested := fun _ hw => hL hw.1

theorem parenthesized_le_nested (hL : L ≤ nested) : parenthesized L ≤ nested := by
  rintro w ⟨_, ⟨a, ha, b, hb, rfl⟩, c, hc, rfl⟩
  obtain rfl := mem_among_singleton_iff.mp ha
  obtain rfl := mem_among_singleton_iff.mp hc
  exact .group (hL hb) .nil

/-- A terminal that is no parenthesis is matched. -/
theorem anyOf_le_nested (hopen : F (.punctuation .leftParen) = false)
    (hclose : F (.punctuation .rightParen) = false) : anyOf F ≤ nested := by
  rintro w ⟨t, ht, rfl⟩
  refine .cons ?_ .nil
  simp only [List.mem_cons, List.not_mem_nil, or_false, not_or]
  constructor
  · rintro rfl
    rw [ht] at hopen
    cases hopen
  · rintro rfl
    rw [ht] at hclose
    cases hclose

theorem keyword_le_nested (k : Keyword) : keyword k ≤ nested := anyOf_le_nested rfl rfl

theorem operator_le_nested (op : Operator) : operator op ≤ nested := anyOf_le_nested rfl rfl

theorem number_le_nested : number ≤ nested := anyOf_le_nested rfl rfl

theorem string_le_nested : string ≤ nested := anyOf_le_nested rfl rfl

theorem comma_le_nested : mark .comma ≤ nested := anyOf_le_nested rfl rfl

theorem dot_le_nested : mark .dot ≤ nested := anyOf_le_nested rfl rfl

theorem list_le_nested (hL : L ≤ nested) : list L ≤ nested :=
  mul_le_nested hL (kstar_le_nested (mul_le_nested comma_le_nested hL))

/-! ### Parts of statements -/

theorem qualifier_le_nested : qualifier ≤ nested :=
  optional_le_nested (mul_le_nested dot_le_nested
    (add_le (anyOf_le_nested rfl rfl) (operator_le_nested .star)))

theorem name_le_nested : name ≤ nested :=
  mul_le_nested (anyOf_le_nested rfl rfl) qualifier_le_nested

theorem otherName_le_nested : otherName ≤ nested :=
  optional_le_nested (add_le (mul_le_nested (keyword_le_nested .AS) name_le_nested)
    (anyOf_le_nested rfl rfl))

theorem sign_le_nested : sign ≤ nested := add_le (operator_le_nested _) (operator_le_nested _)

theorem value_le_nested : value ≤ nested :=
  add_le (add_le (add_le (mul_le_nested (optional_le_nested sign_le_nested) number_le_nested)
    string_le_nested) (keyword_le_nested _)) (keyword_le_nested _)

theorem row_le_nested : row ≤ nested := parenthesized_le_nested (list_le_nested value_le_nested)

theorem conditionOf_le_nested (hL : L ≤ nested) : conditionOf L ≤ nested :=
  mul_le_nested hL (kstar_le_nested
    (mul_le_nested (add_le (keyword_le_nested _) (keyword_le_nested _)) hL))

theorem primaryOf_le_nested (hL : L ≤ nested) : primaryOf L ≤ nested := by
  have identifier : anyOf isIdentifier ≤ nested := anyOf_le_nested rfl rfl
  have arguments : argumentsOf L ≤ nested :=
    optional_le_nested (add_le (operator_le_nested _) (avoiding_le_nested (list_le_nested hL)))
  have applied := mul_le_nested identifier (parenthesized_le_nested arguments)
  have qualified := mul_le_nested identifier qualifier_le_nested
  have grouped := parenthesized_le_nested (conditionOf_le_nested hL)
  exact add_le (add_le (add_le (add_le (add_le (add_le applied qualified) number_le_nested)
    string_le_nested) (keyword_le_nested _)) (operator_le_nested _)) grouped

theorem suffixOf_le_nested (hL : L ≤ nested) : suffixOf L ≤ nested := by
  have not : optional (keyword .NOT) ≤ nested := optional_le_nested (keyword_le_nested _)
  have isNull := mul_le_nested (mul_le_nested (keyword_le_nested .IS) not) (keyword_le_nested .NULL)
  have isIn := mul_le_nested (mul_le_nested not (keyword_le_nested .IN))
    (add_le row_le_nested (parenthesized_le_nested row_le_nested))
  have isLike := mul_le_nested (mul_le_nested not (keyword_le_nested .LIKE)) hL
  have isBetween := mul_le_nested (mul_le_nested (mul_le_nested (mul_le_nested not
    (keyword_le_nested .BETWEEN)) hL) (keyword_le_nested .AND)) hL
  have compared : anyOf isOperator * L ≤ nested := mul_le_nested (anyOf_le_nested rfl rfl) hL
  exact add_le (add_le (add_le (add_le isNull isIn) isLike) isBetween) compared

/-- The rule of an expression leads from nested words to nested words, and so the least language
for which it holds is nested. -/
theorem expression_le_nested : expression ≤ nested :=
  OrderHom.lfp_le _ (mul_le_nested (mul_le_nested (optional_le_nested sign_le_nested)
    (primaryOf_le_nested le_rfl)) (optional_le_nested (suffixOf_le_nested le_rfl)))

theorem condition_le_nested : condition ≤ nested := conditionOf_le_nested expression_le_nested

theorem columns_le_nested : columns ≤ nested :=
  add_le (operator_le_nested _) (avoiding_le_nested
    (list_le_nested (mul_le_nested expression_le_nested otherName_le_nested)))

theorem join_le_nested : join ≤ nested := by
  have side := add_le (keyword_le_nested .LEFT) (keyword_le_nested .RIGHT)
  have outer := optional_le_nested (keyword_le_nested .OUTER)
  have inner := mul_le_nested (keyword_le_nested .INNER) (keyword_le_nested .JOIN)
  exact add_le (add_le (keyword_le_nested _) inner)
    (mul_le_nested (mul_le_nested side outer) (keyword_le_nested _))

theorem tables_le_nested : tables ≤ nested := by
  have table := mul_le_nested name_le_nested otherName_le_nested
  have joined := mul_le_nested (mul_le_nested table (keyword_le_nested .ON)) condition_le_nested
  exact mul_le_nested table (kstar_le_nested (mul_le_nested join_le_nested joined))

theorem whereClause_le_nested : whereClause ≤ nested :=
  mul_le_nested (keyword_le_nested _) condition_le_nested

theorem source_le_nested : source ≤ nested := by
  have group : groupClause ≤ nested :=
    mul_le_nested (mul_le_nested (mul_le_nested (keyword_le_nested _) (keyword_le_nested _))
      columns_le_nested) (optional_le_nested
        (mul_le_nested (keyword_le_nested _) condition_le_nested))
  have order : orderClause ≤ nested :=
    mul_le_nested (mul_le_nested (keyword_le_nested _) (keyword_le_nested _))
      (list_le_nested (mul_le_nested name_le_nested
        (optional_le_nested (add_le (keyword_le_nested _) (keyword_le_nested _)))))
  have limit : limitClause ≤ nested :=
    mul_le_nested (mul_le_nested (keyword_le_nested _) number_le_nested)
      (optional_le_nested (add_le (mul_le_nested (keyword_le_nested _) number_le_nested)
        (mul_le_nested comma_le_nested number_le_nested)))
  have tables := mul_le_nested (keyword_le_nested .FROM) tables_le_nested
  exact mul_le_nested (mul_le_nested (mul_le_nested (mul_le_nested tables
    (optional_le_nested whereClause_le_nested)) (optional_le_nested group))
    (optional_le_nested order)) (optional_le_nested limit)

theorem assignment_le_nested : assignment ≤ nested :=
  mul_le_nested (mul_le_nested name_le_nested (operator_le_nested _)) expression_le_nested

/-! ### Parts of definitions -/

theorem group_le_nested : group ≤ nested := parenthesized_le_nested le_rfl

theorem skipped_le_nested : skipped ≤ nested :=
  kstar_le_nested (add_le group_le_nested (anyOf_le_nested rfl rfl))

theorem referenceAction_le_nested : referenceAction ≤ nested := by
  have event := mul_le_nested (keyword_le_nested .ON)
    (add_le (keyword_le_nested .DELETE) (keyword_le_nested .UPDATE))
  have set := mul_le_nested (keyword_le_nested .SET)
    (add_le (keyword_le_nested .NULL) (keyword_le_nested .DEFAULT))
  have no : anyOf (among [.identifier .no]) * anyOf (among [.identifier .action]) ≤ nested :=
    mul_le_nested (anyOf_le_nested rfl rfl) (anyOf_le_nested rfl rfl)
  exact mul_le_nested event (add_le (add_le (add_le (keyword_le_nested _) (keyword_le_nested _))
    set) no)

theorem referenceOf_le_nested (hL : L ≤ nested) : referenceOf L ≤ nested := by
  have actions : referenceAction∗ * avoiding (among [.keyword .ON]) L ≤ nested :=
    mul_le_nested (kstar_le_nested referenceAction_le_nested) (avoiding_le_nested hL)
  have referenced : referencedOf L ≤ nested :=
    add_le (mul_le_nested (parenthesized_le_nested name_le_nested) actions)
      (avoiding_le_nested actions)
  have qualified : anyOf isName + star ≤ nested :=
    add_le (anyOf_le_nested rfl rfl) (operator_le_nested _)
  exact mul_le_nested (anyOf_le_nested rfl rfl) (add_le
    (mul_le_nested (mul_le_nested dot_le_nested qualified) referenced)
    (avoiding_le_nested referenced))

/-- Constraints of which no group is left open. -/
theorem constraints_le_nested : constraints 0 ≤ nested := by
  have zero : (0 : Language Terminal) ≤ nested := fun _ hw => absurd hw (Language.notMem_zero _)
  have notNull := mul_le_nested (keyword_le_nested .NOT) (keyword_le_nested .NULL)
  have default := mul_le_nested (keyword_le_nested .DEFAULT) value_le_nested
  have primary := mul_le_nested (keyword_le_nested .PRIMARY)
    (optional_le_nested (keyword_le_nested .KEY))
  have reference := mul_le_nested (keyword_le_nested .REFERENCES) (referenceOf_le_nested le_rfl)
  have other : anyOf isOther ≤ nested := anyOf_le_nested rfl rfl
  exact OrderHom.lfp_le _ (add_le (add_le (add_le (add_le (add_le (add_le (add_le
    (optional_le_nested zero) (mul_le_nested notNull le_rfl)) (mul_le_nested default le_rfl))
    (mul_le_nested primary le_rfl)) (mul_le_nested (keyword_le_nested _) le_rfl)) reference)
    (mul_le_nested group_le_nested le_rfl)) (mul_le_nested other le_rfl))

theorem definition_le_nested : definition ≤ nested := by
  have length : typeLength ≤ nested :=
    parenthesized_le_nested (mul_le_nested number_le_nested
      (optional_le_nested (mul_le_nested comma_le_nested number_le_nested)))
  have typed := mul_le_nested name_le_nested (anyOf_le_nested (F := isIdentifier) rfl rfl)
  have column : column 0 ≤ nested :=
    mul_le_nested typed (add_le (mul_le_nested length constraints_le_nested)
      (avoiding_le_nested constraints_le_nested))
  exact add_le (mul_le_nested (anyOf_le_nested rfl rfl) skipped_le_nested)
    (avoiding_le_nested column)

end Grammar

/-! ### Statements -/

namespace Goal

variable {t : Terminal} {ts rest : List Terminal} {goals body : List Goal}

/-- What a recognized part of a statement takes is nested, if its language is. -/
theorem exists_nested_of_recognizes {L : Language Terminal} {p : Profile}
    (h : ∀ n, Recognizes n (run goals) L p) (hL : L ≤ Grammar.nested)
    (hr : run goals ts = .accepted rest) : ∃ w ∈ Grammar.nested, ts = w ++ rest := by
  obtain ⟨w, hw, he⟩ := (h (ts.length + 1)).sound (Nat.lt_succ_self _) trivial hr
  exact ⟨w, hL hw, he⟩

/-- **What follows the first word of a statement is nested**, unless a table is altered. -/
theorem exists_nested_of_body? (hb : body? t = some body) (ht : t ≠ .keyword .ALTER)
    (hr : run body ts = .accepted rest) : ∃ w ∈ Grammar.nested, ts = w ++ rest := by
  open Grammar in
  unfold body? at hb
  split at hb <;> cases hb
  · exact exists_nested_of_recognizes recognizes_query
      (mul_le_nested columns_le_nested (optional_le_nested source_le_nested)) hr
  · have filled := optional_le_nested (parenthesized_le_nested columns_le_nested)
    exact exists_nested_of_recognizes recognizes_insertion
      (mul_le_nested (mul_le_nested (mul_le_nested (mul_le_nested (keyword_le_nested _)
        name_le_nested) filled) (keyword_le_nested _)) (list_le_nested row_le_nested)) hr
  · exact exists_nested_of_recognizes recognizes_update
      (mul_le_nested (mul_le_nested (mul_le_nested name_le_nested (keyword_le_nested _))
        (list_le_nested assignment_le_nested)) (optional_le_nested whereClause_le_nested)) hr
  · exact exists_nested_of_recognizes recognizes_delete
      (mul_le_nested (mul_le_nested (keyword_le_nested _) name_le_nested)
        (optional_le_nested whereClause_le_nested)) hr
  · exact exists_nested_of_recognizes recognizes_creation
      (mul_le_nested (mul_le_nested (keyword_le_nested _) name_le_nested)
        (parenthesized_le_nested (list_le_nested definition_le_nested))) hr
  · exact absurd rfl ht
  · exact exists_nested_of_recognizes recognizes_drop
      (mul_le_nested (keyword_le_nested _) name_le_nested) hr

/-- The word that a statement begins with is a keyword. -/
theorem exists_keyword_of_body? (hb : body? t = some body) : ∃ k, t = .keyword k := by
  unfold body? at hb
  split at hb
  case h_8 => cases hb
  all_goals exact ⟨_, rfl⟩

/-- What is accepted is a statement up to its end or up to its semicolon. -/
theorem exists_body_of_run_statement (h : run [statement] ts = .accepted rest) :
    ∃ t others body mid, ts = t :: others ∧ body? t = some body ∧ run body others = .accepted mid ∧
      (mid = [] ∧ rest = [] ∨ mid = .punctuation .semicolon :: rest) := by
  cases ts with
  | nil => simp [run_cons, step] at h
  | cons t others =>
    rw [run_statement_cons] at h
    cases hb : body? t with
    | none => simp [hb] at h
    | some body =>
      simp only [hb, run_append, Matcher.andThen_eq_accepted_iff,
        run_terminator_eq_accepted_iff] at h
      obtain ⟨mid, hmid, hend⟩ := h
      exact ⟨t, others, body, mid, rfl, hb, hmid, hend⟩

end Goal

variable {tokens : List Token} {i j : Nat}

/-- A statement ends at one place only. -/
theorem EndsAt.eq (hi : EndsAt tokens i) (hj : EndsAt tokens j) : i = j := by
  obtain ⟨hilength, first, others, body, rfl, hb, hr⟩ := hi
  obtain ⟨hjlength, first, others, body', he, hb', hr'⟩ := hj
  obtain ⟨rfl, rfl⟩ := List.cons.inj he
  obtain rfl := Option.some.inj (hb.symm.trans hb')
  have hrest := congrArg List.length (Outcome.accepted.inj (hr.symm.trans hr'))
  rw [length_terminalsFrom, length_terminalsFrom] at hrest
  omega

theorem countP_kind_eq (p : Punctuation) (tokens : List Token) :
    tokens.countP (·.kind = .punctuation p) =
      (tokens.map Token.terminal).count (.punctuation p) := by
  rw [List.count_eq_countP, List.countP_map]
  refine List.countP_congr fun t _ => ?_
  simp [Token.terminal_eq_punctuation_iff]

/-- Tokens are balanced if the grammar sees a nested word in them. -/
theorem isBalanced_of_nested (h : Grammar.Nested (tokens.map Token.terminal)) :
    IsBalanced tokens where
  count_take_le n := by
    have hdepth := h.zero_le_depth_take n
    rw [← List.map_take, Grammar.depth] at hdepth
    rw [countP_kind_eq, countP_kind_eq]
    omega
  count_eq := by
    have hdepth := h.depth_eq
    rw [Grammar.depth] at hdepth
    rw [countP_kind_eq, countP_kind_eq]
    omega

/-- **A valid statement is balanced up to where it ends**, unless it alters a table.  It ends at one
place, which is that of its semicolon or the end of all tokens, and what comes behind this place is
left over. -/
theorem exists_endsAt_isBalanced (hv : (parse tokens).isValid = true)
    (ha : tokens.head?.map Token.kind ≠ some (.keyword .ALTER)) :
    ∃ k, (∀ position, EndsAt tokens position ↔ position = k) ∧
      (k = tokens.length ∨ tokens[k]?.map Token.kind = some (.punctuation .semicolon)) ∧
      Goal.run [.statement] (tokens.map Token.terminal) =
        .accepted (terminalsFrom tokens (k + 1)) ∧
      IsBalanced (tokens.take k) := by
  obtain ⟨-, rest, hrun⟩ := isValid_parse_iff.mp hv
  obtain ⟨t, ts, body, mid, hts, hb, hmid, hend⟩ := Goal.exists_body_of_run_statement hrun
  obtain ⟨first, others, rfl, rfl, rfl⟩ := List.map_eq_cons_iff.mp hts
  have halter : first.terminal ≠ .keyword .ALTER := by
    rw [Ne, Token.terminal_eq_keyword_iff]
    exact fun h => ha (congrArg some h)
  obtain ⟨w, hw, hothers⟩ := Goal.exists_nested_of_body? hb halter hmid
  obtain ⟨before, after, rfl, rfl, rfl⟩ := List.map_eq_append_iff.mp hothers
  have hbalanced : IsBalanced (first :: before) := by
    obtain ⟨k, hk⟩ := Goal.exists_keyword_of_body? hb
    refine isBalanced_of_nested ?_
    rw [List.map_cons, hk]
    exact .cons (by simp) hw
  have hends : EndsAt (first :: (before ++ after)) (before.length + 1) := by
    refine ⟨by simp, first, before ++ after, body, rfl, hb, ?_⟩
    rwa [terminalsFrom, List.drop_succ_cons, List.drop_left]
  refine ⟨before.length + 1, fun position => ⟨fun h => h.eq hends, fun h => h ▸ hends⟩, ?_, ?_, ?_⟩
  · rcases hend with ⟨hafter, -⟩ | hafter
    · obtain rfl := List.map_eq_nil_iff.mp hafter
      exact .inl (by simp)
    · obtain ⟨semicolon, after, rfl, hsemicolon, -⟩ := List.map_eq_cons_iff.mp hafter
      exact .inr (by simp [Token.terminal_eq_punctuation_iff.mp hsemicolon])
  · rw [hrun, terminalsFrom, List.drop_succ_cons, List.drop_length_add_append, List.map_drop]
    rcases hend with ⟨hafter, rfl⟩ | hafter
    · rw [hafter]
      rfl
    · rw [hafter]
      rfl
  · rwa [List.take_succ_cons, List.take_left]

/-- The parentheses of a table are balanced up to its semicolon, though another comes after it. -/
theorem exists_endsAt_isBalanced_createTable :
    (parse (tokenize "CREATE TABLE t (a INT(9), UNIQUE ((a))); )".toList)).isValid = true ∧
    (tokenize "CREATE TABLE t (a INT(9), UNIQUE ((a))); )".toList).head?.map Token.kind ≠
      some (.keyword .ALTER) ∧
    ∃ k, EndsAt (tokenize "CREATE TABLE t (a INT(9), UNIQUE ((a))); )".toList) k ∧
      IsBalanced ((tokenize "CREATE TABLE t (a INT(9), UNIQUE ((a))); )".toList).take k) ∧
      ¬ IsBalanced (tokenize "CREATE TABLE t (a INT(9), UNIQUE ((a))); )".toList) := by
  have hv : (parse (tokenize "CREATE TABLE t (a INT(9), UNIQUE ((a))); )".toList)).isValid =
      true := by
    decide +kernel
  have ha : (tokenize "CREATE TABLE t (a INT(9), UNIQUE ((a))); )".toList).head?.map Token.kind ≠
      some (.keyword .ALTER) := by
    decide +kernel
  have hall : ¬ IsBalanced (tokenize "CREATE TABLE t (a INT(9), UNIQUE ((a))); )".toList) :=
    fun h => absurd h.count_eq (by decide +kernel)
  obtain ⟨k, hends, -, -, hbalanced⟩ := exists_endsAt_isBalanced hv ha
  exact ⟨hv, ha, k, (hends k).mpr rfl, hbalanced, hall⟩

end SqlChecker
