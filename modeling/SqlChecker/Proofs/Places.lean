import Mathlib.Data.List.DropRight
import SqlChecker.Proofs.Lexing.Coverage
import SqlChecker.Proofs.Lexing.Spelling
import SqlChecker.Proofs.Verdict
import SqlChecker.Validation

/-! # Places of problems

Three notions of a place meet in a diagnostic: the line that was counted when the text was split
into tokens, the offset that the token carries, and the line that is cut out of the text to be
shown.  They agree: the line is the number of newlines in front of the offset and one, and what is
shown is the part of the text around the offset between two newlines.
-/
namespace SqlChecker

/-! ### Lines of a text -/

namespace Text

theorem lines_cons {c : Char} (hc : c ≠ '\n') (text : List Char) :
    lines (c :: text) = (lines text).modifyHead (c :: ·) := by
  simp [lines, separate, hc]

/-- A newline ends the lines in front of it and begins those behind it. -/
theorem lines_append_newline (front back : List Char) :
    lines (front ++ '\n' :: back) = lines front ++ lines back :=
  separate_append_cons '\n' front back

/-- The first line of a text goes up to the first newline. -/
theorem getElem?_lines_zero (text : List Char) :
    (lines text)[0]? = some (text.takeWhile (· != '\n')) := by
  induction text with
  | nil => rfl
  | cons c text ih =>
    by_cases hc : c = '\n'
    · subst hc
      rfl
    · obtain ⟨l, ls, hl⟩ := List.exists_cons_of_ne_nil (separate_ne_nil '\n' text)
      have hlines : lines text = l :: ls := hl
      rw [hlines] at ih
      obtain rfl : l = text.takeWhile (· != '\n') := by simpa using ih
      simp [lines_cons hc, hlines, hc]

/-- The line around a place between two parts of a text: from the last newline in front of it up to
the first one behind it. -/
def lineAround (front back : List Char) : List Char :=
  front.rtakeWhile (· != '\n') ++ back.takeWhile (· != '\n')

/-- **The line around a place** in a text is the one whose number is counted by the newlines in
front of the place.  The induction is on the text in front, from its end. -/
theorem line_append (front back : List Char) :
    line (front ++ back) (front.count '\n' + 1) = lineAround front back := by
  induction front using List.reverseRecOn generalizing back with
  | nil =>
    show ((lines back)[0]?).getD [] = back.takeWhile (· != '\n')
    rw [getElem?_lines_zero]
    rfl
  | append_singleton front c ih =>
    rw [lineAround]
    by_cases hc : c = '\n'
    · subst hc
      have hcount : (front ++ ['\n']).count '\n' = (lines front).length := by
        rw [length_lines, List.count_append, List.count_singleton_self]
      rw [List.rtakeWhile_concat_neg _ _ _ (by simp), List.nil_append, List.append_assoc, line,
        lineOf, hcount]
      show ((lines (front ++ '\n' :: back))[(lines front).length]?).getD [] = _
      rw [lines_append_newline, List.getElem?_append_right (Nat.le_refl _), Nat.sub_self,
        getElem?_lines_zero]
      rfl
    · have hcount : (front ++ [c]).count '\n' = front.count '\n' := by
        rw [List.count_append, List.count_singleton, if_neg (by simpa using hc), Nat.add_zero]
      rw [hcount, List.append_assoc, List.singleton_append, ih, lineAround,
        List.rtakeWhile_concat_pos _ _ _ (by simpa using hc), List.takeWhile_cons,
        if_pos (by simpa using hc), List.append_assoc, List.singleton_append]

end Text

/-! ### Problems at tokens -/

variable {tokens : List Token} {source : List Char} {settings : Settings} {d : Diagnostic}

namespace Verdict

/-- A problem past the last token is reported at the last token. -/
theorem tokenAt?_eq (tokens : List Token) (position : Nat) :
    tokenAt? tokens position = tokens[min position (tokens.length - 1)]? := by
  rw [tokenAt?]
  rcases Nat.lt_or_ge position tokens.length with h | h
  · rw [Nat.min_eq_left (by omega), List.getElem?_eq_getElem h]
    rfl
  · rw [Nat.min_eq_right (by omega), List.getElem?_eq_none h, List.getLast?_eq_getElem?]
    rfl

theorem syntaxProblem_eq (tokens : List Token) (position : Nat) (e : SyntaxError) :
    syntaxProblem tokens position e =
      Diagnostic.locate (e.message (((tokenAt? tokens position).map Token.value).getD ""))
        tokens[min position (tokens.length - 1)]? := by
  rw [syntaxProblem, tokenAt?_eq]

/-- What is reported of tokens is reported at one of them, if there is any. -/
theorem exists_locate_of_mem_report (hd : d ∈ (ofTokens tokens).report.errors) :
    ∃ message i, (tokens ≠ [] → i < tokens.length) ∧ d = Diagnostic.locate message tokens[i]? := by
  rw [ofTokens] at hd
  split at hd
  · rw [ofStatement] at hd
    split at hd
    · cases hd
    · obtain rfl := List.mem_singleton.mp hd
      rw [syntaxProblem_eq]
      refine ⟨_, _, fun hne => ?_, rfl⟩
      have hlength := List.length_pos_iff.mpr hne
      omega
  · obtain ⟨t, ht, hfault⟩ := List.mem_filterMap.mp hd
    obtain ⟨message, -, rfl⟩ := Option.map_eq_some_iff.mp hfault
    obtain ⟨i, hi, rfl⟩ := List.mem_iff_getElem.mp ht
    exact ⟨message, i, fun _ => hi, by rw [List.getElem?_eq_getElem hi]⟩

/-- Where there are faults, they are what is reported. -/
theorem report_of_fault (h : ∃ t ∈ tokens, t.fault? ≠ none) :
    (ofTokens tokens).report.errors = faults tokens := by
  rw [ofTokens]
  split
  · obtain ⟨t, ht, hne⟩ := h
    exact absurd (faults_eq_nil_iff.mp ‹_› t ht) hne
  · rfl

/-- Where there are none, a single problem is reported at most. -/
theorem length_report_le (h : ∀ t ∈ tokens, t.fault? = none) :
    (ofTokens tokens).report.errors.length ≤ 1 := by
  rw [ofTokens_eq_ofStatement h, ofStatement]
  split
  · exact Nat.zero_le 1
  · exact Nat.le_refl 1

end Verdict

theorem parse_of_fault (h : ∃ t ∈ tokens, t.fault? ≠ none) :
    parse tokens = ⟨Verdict.faults tokens⟩ :=
  congrArg Report.mk (Verdict.report_of_fault h)

/-- Where there is no token, no place can be named. -/
theorem parse_nil : parse [] = ⟨[⟨"Empty SQL statement", 0, 0, "", none⟩]⟩ := by decide +kernel

/-! ### Problems in a text -/

/-- A problem names the place of a token, or no place if there is no token. -/
def Diagnostic.PointsAt (d : Diagnostic) : Option Token → Prop
  | some t => d.line = t.line ∧ d.word = t.word ∧ d.offset? = some t.span.start
  | none => d.line = 0 ∧ d.word = 0 ∧ d.offset? = none

theorem Diagnostic.pointsAt_locate (message : String) (t? : Option Token) (content : String) :
    ({ Diagnostic.locate message t? with lineContent := content } : Diagnostic).PointsAt t? := by
  cases t? <;> exact ⟨rfl, rfl, rfl⟩

theorem Diagnostic.message_locate (message : String) (t? : Option Token) :
    (Diagnostic.locate message t?).message = message := by
  cases t? <;> rfl

/-- A problem points at a token of a text and shows the line of the text that the token is on. -/
structure Diagnostic.Shows (d : Diagnostic) (t : Token) (source : List Char) : Prop where
  pointsAt : d.PointsAt (some t)
  placed : ∃ front back, source = front ++ back ∧ Text.byteLength front = t.span.start ∧
    d.line = front.count '\n' + 1 ∧ d.lineContent = String.ofList (Text.lineAround front back)

/-- What is reported of a text is what is reported of its tokens, with the lines attached. -/
theorem validate_eq (h : ∀ limit ∈ settings.maxInputBytes?, Text.byteLength source ≤ limit) :
    validate settings source = (parse (tokenize source)).attachLines source := by
  have hlimit : Validation.exceeded? settings source = none := by
    refine Option.filter_eq_none_iff.mpr fun limit hl => ?_
    simpa using h limit hl
  rw [validate, Validation.run, hlimit]
  rfl

theorem Report.isValid_attachLines (r : Report) (source : List Char) :
    (r.attachLines source).isValid = r.isValid := by
  rw [attachLines, isValid, isValid, List.isEmpty_map]

/-- A problem at a token, with its line attached, shows the token. -/
theorem Diagnostic.shows_of_mem_tokenize {t : Token} (ht : t ∈ tokenize source)
    (message : String) :
    ({ Diagnostic.locate message (some t) with
      lineContent := String.ofList (Text.line source t.line) } : Diagnostic).Shows t source := by
  obtain ⟨front, x, behind, hsource, -, -, -, hline, hspan⟩ :=
    (reads_tokenize source).exists_lexeme ht
  have hcount : t.line = front.count '\n' + 1 := by rw [hline, Nat.add_comm]; rfl
  refine ⟨Diagnostic.pointsAt_locate .., front, x.text ++ behind, ?_, ?_, hcount, ?_⟩
  · rw [hsource, List.append_assoc]
  · rw [hspan, Cursor.start, Nat.zero_add]
  · rw [hcount, hsource, List.append_assoc, Text.line_append]

theorem errors_validate_of_empty
    (h : ∀ limit ∈ settings.maxInputBytes?, Text.byteLength source ≤ limit)
    (hempty : tokenize source = []) :
    (validate settings source).errors = [⟨"Empty SQL statement", 0, 0, "", none⟩] := by
  rw [validate_eq h, hempty, parse_nil]
  rfl

theorem exists_shows_of_mem_validate
    (h : ∀ limit ∈ settings.maxInputBytes?, Text.byteLength source ≤ limit)
    (hne : tokenize source ≠ []) (hd : d ∈ (validate settings source).errors) :
    ∃ t ∈ tokenize source, d.Shows t source := by
  rw [validate_eq h] at hd
  obtain ⟨e, he, rfl⟩ := List.mem_map.mp hd
  obtain ⟨message, i, hi, rfl⟩ := Verdict.exists_locate_of_mem_report he
  rw [List.getElem?_eq_getElem (hi hne)]
  exact ⟨_, List.getElem_mem _, Diagnostic.shows_of_mem_tokenize (List.getElem_mem _) message⟩

/-- The faults of a text are reported all, each at its token. -/
theorem errors_validate_of_fault
    (h : ∀ limit ∈ settings.maxInputBytes?, Text.byteLength source ≤ limit)
    (hfault : ∃ t ∈ tokenize source, t.fault? ≠ none) :
    (validate settings source).errors.map (fun d => (d.message, d.offset?)) =
      (tokenize source).filterMap fun t => t.fault?.map (·, some t.span.start) := by
  rw [validate_eq h, parse, Report.attachLines, Verdict.report_of_fault hfault, Verdict.faults,
    List.map_map, List.map_filterMap]
  refine List.filterMap_congr fun t _ => ?_
  cases t.fault? <;> rfl

/-- Of two faults, the first begins in front of the other. -/
theorem pairwise_offset_validate
    (h : ∀ limit ∈ settings.maxInputBytes?, Text.byteLength source ≤ limit)
    (hfault : ∃ t ∈ tokenize source, t.fault? ≠ none) :
    (validate settings source).errors.Pairwise fun d e =>
      ∃ m n, d.offset? = some m ∧ e.offset? = some n ∧ m < n := by
  rw [validate_eq h, parse, Report.attachLines, Verdict.report_of_fault hfault, Verdict.faults]
  refine List.Pairwise.map _ (fun _ _ h => h) ?_
  refine (tiles_tokenize source).ordered.filterMap _ fun t u hlt d hd e he => ?_
  obtain ⟨_, -, rfl⟩ := Option.map_eq_some_iff.mp hd
  obtain ⟨_, -, rfl⟩ := Option.map_eq_some_iff.mp he
  exact ⟨_, _, rfl, rfl, hlt.1⟩

/-- **Every problem points at a real place and shows it.**  A text without tokens has the one
problem that it is empty.  In any other, a problem stands at a token.  Faults are reported all, in
their order; where there are none, there is one problem at most. -/
theorem shows_validate (h : ∀ limit ∈ settings.maxInputBytes?, Text.byteLength source ≤ limit) :
    (tokenize source = [] →
      (validate settings source).errors = [⟨"Empty SQL statement", 0, 0, "", none⟩]) ∧
    (tokenize source ≠ [] →
      ∀ d ∈ (validate settings source).errors, ∃ t ∈ tokenize source, d.Shows t source) ∧
    ((∃ t ∈ tokenize source, t.fault? ≠ none) →
      (validate settings source).errors.map (fun d => (d.message, d.offset?)) =
        ((tokenize source).filterMap fun t => t.fault?.map (·, some t.span.start)) ∧
      (validate settings source).errors.Pairwise fun d e =>
        ∃ m n, d.offset? = some m ∧ e.offset? = some n ∧ m < n) ∧
    ((∀ t ∈ tokenize source, t.fault? = none) → (validate settings source).errors.length ≤ 1) := by
  refine ⟨errors_validate_of_empty h, ?_, ?_, ?_⟩
  · exact fun hne d hd => exists_shows_of_mem_validate h hne hd
  · exact fun hfault => ⟨errors_validate_of_fault h hfault, pairwise_offset_validate h hfault⟩
  · intro hnone
    rw [validate_eq h, Report.attachLines, List.length_map]
    exact Verdict.length_report_le hnone

/-- In two lines, the second with a quotation that is not closed, within sixteen bytes. -/
theorem shows_validate_openQuotation :
    (∀ limit ∈ (Settings.mk (some 16)).maxInputBytes?,
      Text.byteLength "DROP TABLE\n 'é".toList ≤ limit) ∧
    tokenize "DROP TABLE\n 'é".toList ≠ [] ∧
    (∀ d ∈ (validate ⟨some 16⟩ "DROP TABLE\n 'é".toList).errors,
      ∃ t ∈ tokenize "DROP TABLE\n 'é".toList, d.Shows t "DROP TABLE\n 'é".toList) ∧
    (validate ⟨some 16⟩ "DROP TABLE\n 'é".toList).errors.map (fun d => (d.message, d.offset?)) =
      [("Unterminated string", some 12)] := by
  have hlimit : ∀ limit ∈ (Settings.mk (some 16)).maxInputBytes?,
      Text.byteLength "DROP TABLE\n 'é".toList ≤ limit := by decide +kernel
  have hne : tokenize "DROP TABLE\n 'é".toList ≠ [] := by decide +kernel
  have hfault : ∃ t ∈ tokenize "DROP TABLE\n 'é".toList, t.fault? ≠ none := by decide +kernel
  obtain ⟨-, hshows, hfaults, -⟩ := shows_validate hlimit
  refine ⟨hlimit, hne, hshows hne, (hfaults hfault).1.trans ?_⟩
  decide +kernel

end SqlChecker
