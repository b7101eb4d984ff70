import SqlChecker.Proofs.Lexing.Seam
import SqlChecker.Proofs.Matching.Goals
import SqlChecker.Proofs.Matching.Prefix
import SqlChecker.Proofs.Places

/-! # After the semicolon that ends a statement

A statement that has been matched up to a semicolon is ended by it, and no goal looks any further
(`run_append_of_isTerminated`).  So in a text whose statement is ended in this way, further lines
are read for their faults only, and these are found where they would be found in the further lines
alone (`validate_append_of_isTerminated`).
-/
namespace SqlChecker
namespace Goal

/-- What follows the first word of a statement is matched up to a semicolon, which ends the
statement. -/
def IsTerminated (ts : List Terminal) : Prop :=
  ∃ t body behind rest, ts = t :: behind ∧ body? t = some body ∧
    run body behind = .accepted (.punctuation .semicolon :: rest)

variable {goals body : List Goal} {t : Terminal} {ts taken rest : List Terminal}

/-! ### Before a semicolon -/

/-- A semicolon tells all that there is to be done before it. -/
theorem step_semicolon (g : Goal) (second third second' third' : Option Terminal) :
    g.step (some (.punctuation .semicolon)) second third =
      g.step (some (.punctuation .semicolon)) second' third' := by
  cases g <;> rfl

theorem moveBefore_semicolon (goals : List Goal) (rest rest' : List Terminal) :
    moveBefore goals (.punctuation .semicolon :: rest) =
      moveBefore goals (.punctuation .semicolon :: rest') := by
  induction goals with
  | nil => rfl
  | cons g goals ih =>
    rw [moveBefore_cons, moveBefore_cons, stepBefore_cons, stepBefore_cons, ih,
      step_semicolon g _ _ rest'[0]? rest'[1]?]

/-- Goals that take nothing before a semicolon are all skipped there. -/
theorem moveBefore_of_run_semicolon
    (h : run goals (.punctuation .semicolon :: rest) =
      .accepted (.punctuation .semicolon :: rest)) :
    moveBefore goals (.punctuation .semicolon :: rest) = .finish := by
  cases hm : moveBefore goals (.punctuation .semicolon :: rest) with
  | finish => rfl
  | fail e =>
    rw [run_of_fail hm] at h
    cases h
  | take count next =>
    rw [run_of_take hm] at h
    have hle := length_le_of_run h
    have hlt := length_drop_of_moveBefore hm
    omega

/-- **What is matched up to a semicolon** is matched up to it whatever comes after. -/
theorem run_append_semicolon
    (h : run goals (taken ++ .punctuation .semicolon :: rest) =
      .accepted (.punctuation .semicolon :: rest)) (rest' : List Terminal) :
    run goals (taken ++ .punctuation .semicolon :: rest') =
      .accepted (.punctuation .semicolon :: rest') := by
  cases hl : left? goals taken with
  | some next =>
    rw [run_append_of_left? hl (follows_semicolon rest)] at h
    rw [run_append_of_left? hl (follows_semicolon rest')]
    refine run_of_finish ?_
    rw [moveBefore_semicolon next rest' rest]
    exact moveBefore_of_run_semicolon h
  | none =>
    obtain ⟨front, left, -, ⟨e, hrun⟩ | hrun⟩ := run_append_of_left?_eq_none hl
    · rw [hrun _ (follows_semicolon rest)] at h
      cases h
    · rw [hrun _ (follows_semicolon rest)] at h
      obtain rfl := List.self_eq_append_left.mp (Outcome.accepted.inj h).symm
      exact hrun _ (follows_semicolon rest')

/-- **A statement that is ended by a semicolon** is accepted whatever comes after. -/
theorem run_append_of_isTerminated (h : IsTerminated ts) (more : List Terminal) :
    ∃ rest, run [statement] (ts ++ more) = .accepted rest := by
  obtain ⟨t, body, behind, rest, rfl, hbody, hrun⟩ := h
  obtain ⟨taken, rfl⟩ := suffix_of_run hrun
  have hbody' := run_append_semicolon hrun (rest ++ more)
  rw [List.cons_append, run_statement_cons, hbody, List.append_assoc, List.cons_append]
  refine ⟨rest ++ more, ?_⟩
  show run (body ++ [terminator]) _ = _
  rw [run_append, Matcher.andThen_eq_accepted_iff]
  exact ⟨_, hbody', run_terminator_eq_accepted_iff.mpr (.inr rfl)⟩

end Goal

/-! ### Further lines -/

/-- The problem so many bytes and lines further on. -/
def Diagnostic.shift (bytes lines : Nat) (d : Diagnostic) : Diagnostic :=
  { d with line := d.line + lines, offset? := d.offset?.map (· + bytes) }

/-- The lines of a text that ends its last line come before those of what is put behind it. -/
theorem Text.lineOf_append {front : List Char} (hend : front.getLast? = some '\n')
    (back : List Char) {n : Nat} (hn : 0 < n) :
    lineOf (lines (front ++ back)) (n + front.count '\n') = lineOf (lines back) n := by
  obtain ⟨front, rfl⟩ := List.getLast?_eq_some_iff.mp hend
  obtain ⟨n, rfl⟩ := Nat.exists_eq_succ_of_ne_zero hn.ne'
  have hcount : (front ++ ['\n']).count '\n' = (lines front).length := by
    rw [length_lines, List.count_append, List.count_singleton_self]
  have hlines : lines (front ++ ['\n'] ++ back) = lines front ++ lines back := by
    rw [List.append_assoc]
    exact lines_append_newline front back
  rw [hcount, hlines, Nat.succ_add]
  show ((lines front ++ lines back)[n + (lines front).length]?).getD [] = _
  rw [List.getElem?_append_right (Nat.le_add_left _ n), Nat.add_sub_cancel]
  rfl

namespace Verdict

variable {tokens : List Token} {source more : List Char}

theorem faults_append (tokens tokens' : List Token) :
    faults (tokens ++ tokens') = faults tokens ++ faults tokens' :=
  List.filterMap_append

theorem faults_shift (bytes lines : Nat) (tokens : List Token) :
    faults (tokens.map (Token.shift bytes lines)) =
      (faults tokens).map (Diagnostic.shift bytes lines) := by
  rw [faults, faults, List.filterMap_map, List.map_filterMap]
  refine List.filterMap_congr fun t _ => ?_
  rw [Function.comp_apply, Token.fault?_shift]
  cases t.fault? <;> rfl

/-- A fault of a text is on one of its lines. -/
theorem line_pos_of_mem_faults {d : Diagnostic} (h : d ∈ faults (tokenize source)) :
    0 < d.line := by
  obtain ⟨t, ht, hfault⟩ := List.mem_filterMap.mp h
  obtain ⟨message, -, rfl⟩ := Option.map_eq_some_iff.mp hfault
  obtain ⟨front, x, behind, -, -, -, -, hline, -⟩ := (reads_tokenize source).exists_lexeme ht
  show 0 < t.line
  rw [hline]
  exact Nat.lt_of_lt_of_le Nat.one_pos (Nat.le_add_right 1 _)

end Verdict

/-- The faults of further lines are shown with the lines that they are on. -/
theorem attachLines_append {source : List Char} (hend : source.getLast? = some '\n')
    (more : List Char) :
    (Report.attachLines
      ⟨(Verdict.faults (tokenize more)).map
        (Diagnostic.shift (Text.byteLength source) (source.count '\n'))⟩ (source ++ more)).errors =
    (Report.attachLines ⟨Verdict.faults (tokenize more)⟩ more).errors.map
      (Diagnostic.shift (Text.byteLength source) (source.count '\n')) := by
  simp only [Report.attachLines, List.map_map]
  refine List.map_congr_left fun d hd => ?_
  simp only [Function.comp_apply, Diagnostic.shift,
    Text.lineOf_append hend more (Verdict.line_pos_of_mem_faults hd)]

/-- **After the semicolon that ends a statement only faults count.**  Let a source end its last
line, be valid, and let its statement be ended by a semicolon.  Then, whatever further text is put
behind it, the whole is valid just if there is no fault in the further text, and otherwise the
problems are those of the further text alone, so many bytes and lines further on. -/
theorem validate_append_of_isTerminated {settings : Settings} {source more : List Char}
    (hlimit : ∀ limit ∈ settings.maxInputBytes?, Text.byteLength (source ++ more) ≤ limit)
    (hend : source.getLast? = some '\n') (hvalid : (validate settings source).isValid = true)
    (hterminated : Goal.IsTerminated ((tokenize source).map Token.terminal)) :
    ((validate settings (source ++ more)).isValid = true ↔
      ∀ t ∈ tokenize more, t.fault? = none) ∧
    ((∃ t ∈ tokenize more, t.fault? ≠ none) →
      (validate settings (source ++ more)).errors =
        (validate settings more).errors.map
          (Diagnostic.shift (Text.byteLength source) (source.count '\n'))) := by
  have hsource : ∀ limit ∈ settings.maxInputBytes?, Text.byteLength source ≤ limit := by
    intro limit hl
    have := hlimit limit hl
    rw [Text.byteLength_append] at this
    omega
  have hmore : ∀ limit ∈ settings.maxInputBytes?, Text.byteLength more ≤ limit := by
    intro limit hl
    have := hlimit limit hl
    rw [Text.byteLength_append] at this
    omega
  rw [validate_eq hsource, Report.isValid_attachLines, isValid_parse_iff] at hvalid
  have hopen : ∀ t ∈ tokenize source, t.kind ≠ .fault LexicalFault.openComment.message := by
    intro t ht hkind
    have hnone := hvalid.1 t ht
    rw [Token.fault?, hkind] at hnone
    cases hnone
  have htokens := tokenize_append hend hopen more
  rw [validate_eq hlimit, validate_eq hmore, Report.isValid_attachLines, isValid_parse_iff, htokens]
  constructor
  · rw [List.forall_mem_append, List.forall_mem_map, List.map_append]
    refine ⟨fun h => h.1.2, fun h => ⟨⟨hvalid.1, h⟩, ?_⟩⟩
    exact Goal.run_append_of_isTerminated hterminated _
  · rintro ⟨t, ht, hfault⟩
    rw [parse_of_fault ⟨t, ht, hfault⟩,
      parse_of_fault ⟨_, List.mem_append_right _ (List.mem_map_of_mem ht), hfault⟩,
      Verdict.faults_append, Verdict.faults_eq_nil_iff.mpr hvalid.1, List.nil_append,
      Verdict.faults_shift]
    exact attachLines_append hend more

/-- Behind a query, two faults are found where they are in their own lines. -/
theorem validate_append_query :
    (∀ limit ∈ ({} : Settings).maxInputBytes?,
      Text.byteLength ("SELECT 1;\n".toList ++ ") é\n'x".toList) ≤ limit) ∧
    "SELECT 1;\n".toList.getLast? = some '\n' ∧
    (validate {} "SELECT 1;\n".toList).isValid = true ∧
    Goal.IsTerminated ((tokenize "SELECT 1;\n".toList).map Token.terminal) ∧
    (∃ t ∈ tokenize ") é\n'x".toList, t.fault? ≠ none) ∧
    (validate {} ("SELECT 1;\n".toList ++ ") é\n'x".toList)).errors =
      (validate {} ") é\n'x".toList).errors.map (Diagnostic.shift 10 1) := by
  have hlimit : ∀ limit ∈ ({} : Settings).maxInputBytes?,
      Text.byteLength ("SELECT 1;\n".toList ++ ") é\n'x".toList) ≤ limit := fun _ h => nomatch h
  have hend : "SELECT 1;\n".toList.getLast? = some '\n' := by decide
  have hvalid : (validate {} "SELECT 1;\n".toList).isValid = true := by decide +kernel
  have hterminals : (tokenize "SELECT 1;\n".toList).map Token.terminal =
      [.keyword .SELECT, .number, .punctuation .semicolon] := by decide +kernel
  have hterminated : Goal.IsTerminated ((tokenize "SELECT 1;\n".toList).map Token.terminal) := by
    rw [hterminals]
    exact ⟨_, _, _, [], rfl, rfl, by decide +kernel⟩
  have hfault : ∃ t ∈ tokenize ") é\n'x".toList, t.fault? ≠ none := by decide +kernel
  refine ⟨hlimit, hend, hvalid, hterminated, hfault, ?_⟩
  exact (validate_append_of_isTerminated hlimit hend hvalid hterminated).2 hfault

end SqlChecker
