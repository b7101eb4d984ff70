import SqlChecker.Proofs.Lexing.Seam
import SqlChecker.Proofs.Places
import SqlChecker.Report.Format

/-! # Marks under problems

A report for reading is made of blocks, one for each problem.  The block on a problem that has a
place quotes its line and sets a mark below.  The line was cut out of the text by its number, and
carriage returns at its end are left out; the mark is set by counting characters back from the place
to the last newline.  Both come to the same: above the mark stands the first character of the token
that the problem points at (`render_marks`).
-/
namespace SqlChecker

variable {source behind : List Char} {settings : Settings} {d : Diagnostic} {offset : Nat}

/-- The part of a report that is on one problem. -/
def Diagnostic.block (d : Diagnostic) (source : List Char) : List Char :=
  (d.plainLines source).flatMap (· ++ ['\n'])

/-- The block on a problem quotes a line and marks the character in one of its columns: the line is
that of the problem without the carriage returns at its end. -/
structure Diagnostic.Marks (d : Diagnostic) (source shown : List Char) (column : Nat) (c : Char) :
    Prop where
  block_eq : d.block source = d.headline.toList ++ "\n  | ".toList ++ shown ++ "\n  | ".toList ++
    List.replicate column ' ' ++ "^\n".toList
  lineContent_eq : ∃ count, d.lineContent.toList = shown ++ List.replicate count '\r'
  getLast?_ne : shown.getLast? ≠ some '\r'
  column_lt : column < shown.length
  getElem?_eq : shown[column]? = some c

/-! ### Lines without carriage returns -/

namespace Diagnostic

/-- What is left out of a line are the carriage returns at its end, all of them. -/
theorem shownLine_append (d : Diagnostic) :
    (∃ count, d.lineContent.toList = d.shownLine ++ List.replicate count '\r') ∧
      d.shownLine.getLast? ≠ some '\r' := by
  have hshown : d.shownLine = d.lineContent.toList.rdropWhile (· == '\r') := rfl
  rw [hshown]
  refine ⟨⟨(d.lineContent.toList.rtakeWhile (· == '\r')).length, ?_⟩, fun hlast => ?_⟩
  · have hreturns : d.lineContent.toList.rtakeWhile (· == '\r') =
        List.replicate (d.lineContent.toList.rtakeWhile (· == '\r')).length '\r' :=
      List.eq_replicate_of_mem fun c hc => by simpa using List.mem_rtakeWhile_imp hc
    rw [← hreturns, List.rdropWhile_append_rtakeWhile]
  · obtain ⟨front, hfront⟩ := List.getLast?_eq_some_iff.mp hlast
    have hne : d.lineContent.toList.rdropWhile (· == '\r') ≠ [] := by simp [hfront]
    refine List.rdropWhile_last_not (· == '\r') _ hne ?_
    simp [hfront]

/-- Carriage returns are left out behind a character that is none. -/
theorem shownLine_eq {front : List Char} {c : Char} {back : List Char}
    (h : d.lineContent.toList = front ++ c :: back) (hc : c ≠ '\r') :
    d.shownLine = front ++ c :: back.rdropWhile (· == '\r') := by
  have hshown : d.shownLine = d.lineContent.toList.rdropWhile (· == '\r') := rfl
  rw [hshown, h]
  clear h hshown
  induction back using List.reverseRecOn with
  | nil =>
    rw [List.rdropWhile_concat_neg _ _ _ (by simpa using hc)]
    rfl
  | append_singleton back last ih =>
    rw [← List.cons_append, ← List.append_assoc]
    by_cases hlast : last = '\r'
    · rw [List.rdropWhile_concat_pos _ _ _ (by simpa using hlast),
        List.rdropWhile_concat_pos _ _ _ (by simpa using hlast), ih]
    · rw [List.rdropWhile_concat_neg _ _ _ (by simpa using hlast),
        List.rdropWhile_concat_neg _ _ _ (by simpa using hlast), List.append_assoc,
        List.cons_append]

/-! ### Columns -/

/-- **The mark of a problem** that shows the line around its place stands under the character at the
place. -/
theorem marks_of_lineContent {front back : List Char} {c : Char} (hline : d.line ≠ 0)
    (hoffset : d.offset? = some (Text.byteLength front))
    (hcontent : d.lineContent = String.ofList (Text.lineAround front (c :: back)))
    (hc : Text.isBlank c = false) :
    ∃ shown column, d.Marks (front ++ c :: back) shown column c := by
  have hnewline : c ≠ '\n' := by rintro rfl; cases hc
  have hreturn : c ≠ '\r' := by rintro rfl; cases hc
  have hchars : d.lineContent.toList =
      front.rtakeWhile (· != '\n') ++ c :: back.takeWhile (· != '\n') := by
    rw [hcontent, String.toList_ofList, Text.lineAround, List.takeWhile_cons_of_pos]
    simpa using hnewline
  have hcolumn : d.column? (front ++ c :: back) = some (front.rtakeWhile (· != '\n')).length := by
    have hcut : Text.splitAtByte? (Text.byteLength front) (front ++ c :: back) =
        some (front, c :: back) := Text.splitAtByte?_eq_some_iff.mpr ⟨rfl, rfl⟩
    rw [column?, hoffset]
    show (Text.splitAtByte? (Text.byteLength front) (front ++ c :: back)).bind _ = _
    rw [hcut]
    rfl
  obtain ⟨htrimmed, hlast⟩ := d.shownLine_append
  have hshown := shownLine_eq hchars hreturn
  refine ⟨d.shownLine, (front.rtakeWhile (· != '\n')).length, ?_, htrimmed, hlast, ?_, ?_⟩
  · rw [block, plainLines, if_neg hline, quotation, hcolumn]
    simp [Report.margin]
  · rw [hshown, List.length_append, List.length_cons]
    omega
  · rw [hshown, List.getElem?_append_right (Nat.le_refl _), Nat.sub_self]
    rfl

end Diagnostic

/-! ### Problems that have a place -/

/-- A lexeme begins with no blank. -/
theorem Lexeme.Precedes.exists_cons {x : Lexeme} (h : x.Precedes behind) :
    ∃ c cs, x.text = c :: cs ∧ Text.isBlank c = false := by
  obtain ⟨c, cs, htext⟩ := List.exists_cons_of_ne_nil h.text_ne_nil
  have hnone := splitPiece?_of_precedes h
  rw [htext, List.cons_append, Trivia.splitPiece?_cons_eq_none_iff] at hnone
  exact ⟨c, cs, htext, hnone.1⟩

/-- A problem of a text has no place, or it shows a token. -/
theorem unplaced_or_exists_shows (hd : d ∈ (validate settings source).errors) :
    d.line = 0 ∧ d.offset? = none ∨ ∃ t ∈ tokenize source, d.Shows t source := by
  by_cases hlimit : ∀ limit ∈ settings.maxInputBytes?, Text.byteLength source ≤ limit
  · by_cases hempty : tokenize source = []
    · rw [errors_validate_of_empty hlimit hempty] at hd
      obtain rfl := List.mem_singleton.mp hd
      exact .inl ⟨rfl, rfl⟩
    · exact .inr (exists_shows_of_mem_validate hlimit hempty hd)
  · push Not at hlimit
    obtain ⟨limit, hl, hlt⟩ := hlimit
    have hover : Validation.exceeded? settings source = some limit :=
      Option.filter_eq_some_iff.mpr ⟨hl, by simpa using hlt⟩
    rw [validate, Validation.run, hover] at hd
    obtain rfl := List.mem_singleton.mp hd
    exact .inl ⟨rfl, rfl⟩

/-- A problem that has a place is found in a text that has been read. -/
theorem exists_shows_of_offset? (hd : d ∈ (validate settings source).errors)
    (hoffset : d.offset? = some offset) : ∃ t ∈ tokenize source, d.Shows t source := by
  refine (unplaced_or_exists_shows hd).resolve_left ?_
  rintro ⟨-, hnone⟩
  rw [hnone] at hoffset
  cases hoffset

theorem Report.plain_of_ne_nil {r : Report} (h : r.errors ≠ []) (source : List Char) :
    r.plain source = r.errors.flatMap (·.block source) := by
  have hinvalid : r.isValid = false := List.isEmpty_eq_false_iff.mpr h
  rw [plain, plainLines, hinvalid, if_neg Bool.false_ne_true, List.flatMap_assoc]
  rfl

/-- **The mark is under the token.**  The report on a text is made of blocks, and in the block on a
problem that has a place, the character above the mark is the one at this place of the text, with
which the token begins that the problem points at. -/
theorem render_marks {before after : List Diagnostic}
    (h : (validate settings source).errors = before ++ d :: after)
    (hoffset : d.offset? = some offset) :
    (validate settings source).render source .text =
      before.flatMap (·.block source) ++ d.block source ++ after.flatMap (·.block source) ∧
    ∃ shown column c, d.Marks source shown column c ∧
      (∃ front back, source = front ++ c :: back ∧ Text.byteLength front = offset) ∧
      ∃ t ∈ tokenize source, d.PointsAt (some t) ∧ t.span.start = offset ∧
        ∃ cs, t.span.slice? source = some (c :: cs) := by
  constructor
  · show (validate settings source).plain source = _
    rw [Report.plain_of_ne_nil (by simp [h]), h, List.flatMap_append, List.flatMap_cons,
      List.append_assoc]
  · have hd : d ∈ (validate settings source).errors := by simp [h]
    obtain ⟨t, ht, hpoints, front, back, hsource, hbytes, hline, hcontent⟩ :=
      exists_shows_of_offset? hd hoffset
    -- The place is where the lexeme of the token begins.
    obtain ⟨front', x, behind, hsource', hx, -, -, -, hspan⟩ :=
      (reads_tokenize source).exists_lexeme ht
    obtain ⟨c, cs, htext, hblank⟩ := hx.exists_cons
    rw [Cursor.start, Nat.zero_add, Nat.zero_add] at hspan
    have hfront : Text.byteLength front = Text.byteLength front' := by rw [hbytes, hspan]
    have hback : front ++ back = front' ++ (x.text ++ behind) := by
      rw [← hsource, hsource', List.append_assoc]
    obtain ⟨rfl, rfl⟩ := Text.append_inj_of_byteLength hback hfront
    obtain rfl : t.span.start = offset := Option.some.inj (hpoints.2.2.symm.trans hoffset)
    rw [htext, List.cons_append] at hsource hcontent
    obtain ⟨shown, column, hmarks⟩ := Diagnostic.marks_of_lineContent (by omega)
      (by rw [hbytes, hoffset]) hcontent hblank
    refine ⟨shown, column, c, hsource ▸ hmarks, ⟨front, _, hsource, hbytes⟩, t, ht, hpoints, rfl,
      cs, ?_⟩
    rw [← htext]
    exact Span.slice?_eq_some_iff.mpr ⟨front, behind, hsource', hbytes, by rw [hspan]⟩

/-- A stray character behind a comment of two lines, where two carriage returns end the line. -/
theorem render_marks_stray :
    (validate {} "/* é\n*/ SELECT 'ö' é\r\r\n#".toList).errors =
      [] ++ ⟨"Unexpected character: 'é'", 2, 3, "*/ SELECT 'ö' é\r\r", some 21⟩ ::
        [⟨"Unexpected character: '#'", 3, 1, "#", some 26⟩] ∧
    ∃ shown column c,
      (⟨"Unexpected character: 'é'", 2, 3, "*/ SELECT 'ö' é\r\r", some 21⟩ : Diagnostic).Marks
        "/* é\n*/ SELECT 'ö' é\r\r\n#".toList shown column c ∧
      ∃ front back, "/* é\n*/ SELECT 'ö' é\r\r\n#".toList = front ++ c :: back ∧
        Text.byteLength front = 21 := by
  have h : (validate {} "/* é\n*/ SELECT 'ö' é\r\r\n#".toList).errors =
      [] ++ ⟨"Unexpected character: 'é'", 2, 3, "*/ SELECT 'ö' é\r\r", some 21⟩ ::
        [⟨"Unexpected character: '#'", 3, 1, "#", some 26⟩] := by decide +kernel
  obtain ⟨-, shown, column, c, hmarks, hplace, -⟩ := render_marks h rfl
  exact ⟨h, shown, column, c, hmarks, hplace⟩

end SqlChecker
