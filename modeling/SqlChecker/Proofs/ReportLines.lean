import Mathlib.Data.List.SplitBy
import SqlChecker.Proofs.Channels
import SqlChecker.Proofs.Findings
import SqlChecker.Proofs.Marks

/-! # Lines of a report

A report for reading is a text of lines, and whoever reads it has nothing but these lines.  Those
that quote the text begin with a margin and headlines do not, so the lines fall into blocks, one for
each problem (`render_text_splits`).  For that no line may be broken in two: what a problem says and
the line that it shows hold no newline, although both may quote the text.
-/
namespace SqlChecker

variable {source behind : List Char} {settings : Settings} {tokens : List Token} {d : Diagnostic}

/-- A line of a report that quotes the text. -/
def Report.isQuote (line : List Char) : Bool := margin.isPrefixOf line

/-- The lines of a report, parted in front of each that does not quote the text. -/
def Report.blocks (lines : List (List Char)) : List (List (List Char)) :=
  lines.splitBy fun _ line => isQuote line

/-- A block of lines tells a problem: first a headline with its place and what it says, and then, if
it has a place, two lines that quote the text. -/
structure Diagnostic.ToldBy (d : Diagnostic) (block : List (List Char)) : Prop where
  head?_eq : block.head? = some ("line ".toList ++ Text.decimal d.line ++ ", word ".toList ++
    Text.decimal d.word ++ ": ".toList ++ d.message.toList)
  isQuote_head : ∀ line ∈ block.head?, Report.isQuote line = false
  isQuote_tail : ∀ line ∈ block.tail, Report.isQuote line = true
  length_tail : block.tail.length = if d.line = 0 then 0 else 2

/-! ### Lines of a text -/

namespace Text

/-- A text without newlines is a line. -/
theorem lines_eq_singleton {text : List Char} (h : '\n' ∉ text) : lines text = [text] :=
  separate_eq_singleton h

/-- Lines that a newline ends are those of their text, and behind them begins an empty one. -/
theorem lines_flatMap_newline {ls : List (List Char)} (h : ∀ l ∈ ls, '\n' ∉ l) :
    lines (ls.flatMap (· ++ ['\n'])) = ls ++ [[]] := by
  induction ls with
  | nil => rfl
  | cons l ls ih =>
    obtain ⟨hl, hls⟩ := List.forall_mem_cons.mp h
    rw [List.flatMap_cons, List.append_assoc, List.singleton_append, lines_append_newline,
      lines_eq_singleton hl, ih hls]
    rfl

theorem newline_notMem_line (text : List Char) (n : Nat) : '\n' ∉ line text n := by
  cases n with
  | zero => exact List.not_mem_nil
  | succ n =>
    rw [line, lineOf]
    cases hl : (lines text)[n]? with
    | none => exact List.not_mem_nil
    | some l => exact notMem_of_mem_separate (List.mem_of_getElem? hl)

theorem newline_notMem_decimal (n : Nat) : '\n' ∉ decimal n :=
  fun h => absurd (isDigit_of_mem_decimal h) (by decide)

end Text

/-! ### What is quoted of a text -/

/-- **No token carries a newline.** -/
theorem Lexeme.Precedes.newline_notMem_value {x : Lexeme} (h : x.Precedes behind) :
    '\n' ∉ x.value := by
  cases x with
  | word text =>
    obtain ⟨⟨c, cs, rfl, hc, hcs⟩, -⟩ := h
    intro hmem
    rcases List.mem_cons.mp hmem with rfl | hmem
    · exact absurd hc (by decide)
    · exact absurd (hcs _ hmem) (by decide)
  | number text =>
    obtain ⟨⟨whole, -, hwhole, hplaces⟩, -⟩ := h
    have digits {ds : List Char} (hds : ∀ c ∈ ds, c.isDigit = true) : '\n' ∉ ds :=
      fun hmem => absurd (hds _ hmem) (by decide)
    rcases hplaces with rfl | ⟨places, hplaces, rfl⟩
    · exact digits hwhole
    · show '\n' ∉ whole ++ '.' :: places
      simp [digits hwhole, digits hplaces]
  | quotation quote content => exact h.2.1
  | openQuotation quote content => exact h.2.1
  | operator op text =>
    have hop : Operator.ofSpelling? text = some op := h.1
    intro hmem
    rcases text with - | ⟨c, - | ⟨c', - | ⟨c'', cs⟩⟩⟩
    · cases hmem
    · obtain rfl := List.mem_singleton.mp hmem
      cases hop
    · rcases List.mem_pair.mp hmem with rfl | rfl
      · have hpair : Operator.ofPair? '\n' c' = some op := hop
        cases Operator.isSome_ofChar?_of_ofPair? hpair
      · simp [Operator.ofSpelling?, Operator.ofPair?] at hop
    · cases hop
  | punctuation p => cases p <;> decide
  | stray c =>
    rintro hmem
    obtain rfl := List.mem_singleton.mp hmem
    cases h.blank
  | openComment body =>
    show '\n' ∉ ['/', '*']
    decide

/-- No fault that is told quotes a newline. -/
theorem Lexeme.Precedes.newline_notMem_fault {x : Lexeme} (h : x.Precedes behind)
    {message : String} (hk : x.kind = .fault message) : '\n' ∉ message.toList := by
  cases x with
  | word text =>
    rw [Lexeme.kind] at hk
    split at hk <;> cases hk
  | openQuotation quote content =>
    rw [← TokenKind.fault.inj hk]
    decide +kernel
  | openComment body =>
    rw [← TokenKind.fault.inj hk]
    decide +kernel
  | stray c =>
    have hvalue : '\n' ∉ [c] := h.newline_notMem_value
    have hmessage : message = "Unexpected character: '" ++ String.singleton c ++ "'" :=
      (TokenKind.fault.inj hk).symm
    rw [hmessage, String.toList_append, String.toList_append, List.mem_append, List.mem_append]
    rintro ((hmem | hmem) | hmem)
    · exact absurd hmem (by decide +kernel)
    · rw [String.toList_singleton] at hmem
      exact hvalue hmem
    · exact absurd hmem (by decide +kernel)
  | _ => cases hk

theorem newline_notMem_of_mem_tokenize {t : Token} (ht : t ∈ tokenize source) :
    '\n' ∉ t.value.toList ∧ ∀ message, t.fault? = some message → '\n' ∉ message.toList := by
  obtain ⟨front, x, behind, -, hx, hkind, hvalue, -, -⟩ :=
    (reads_tokenize source).exists_lexeme ht
  constructor
  · rw [hvalue, String.toList_ofList]
    exact hx.newline_notMem_value
  · intro message hmessage
    refine hx.newline_notMem_fault (hkind.symm.trans ?_)
    unfold Token.fault? at hmessage
    split at hmessage
    · next hk => rw [hk, Option.some.inj hmessage]
    · cases hmessage

theorem SyntaxError.newline_notMem_message (e : SyntaxError) {found : String}
    (h : '\n' ∉ found.toList) : '\n' ∉ (e.message found).toList := by
  by_cases he : e = .unknownStatement
  · subst he
    show '\n' ∉ (_ ++ found : String).toList
    rw [String.toList_append, List.mem_append]
    rintro (hmem | hmem)
    · exact absurd hmem (by decide +kernel)
    · exact h hmem
  · rw [SyntaxError.message_eq he found ""]
    clear he
    cases e <;> decide +kernel

/-! ### What is reported -/

/-- What is reported of tokens is a fault among them, or a syntax error that may quote one. -/
theorem Verdict.message_of_mem_report (hd : d ∈ (ofTokens tokens).report.errors) :
    (∃ t ∈ tokens, t.fault? = some d.message) ∨
      ∃ (e : SyntaxError) (found : String), (found = "" ∨ ∃ t ∈ tokens, t.value = found) ∧
        d.message = e.message found := by
  rw [ofTokens] at hd
  split at hd
  · rw [ofStatement] at hd
    split at hd
    · cases hd
    · obtain rfl := List.mem_singleton.mp hd
      refine .inr ⟨_, _, ?_, Diagnostic.message_locate ..⟩
      rw [tokenAt?_eq]
      cases ht : tokens[min (tokens.length - _) (tokens.length - 1)]? with
      | none => exact .inl rfl
      | some t => exact .inr ⟨t, List.mem_of_getElem? ht, rfl⟩
  · obtain ⟨t, ht, hfault⟩ := List.mem_filterMap.mp hd
    obtain ⟨message, hmessage, rfl⟩ := Option.map_eq_some_iff.mp hfault
    exact .inl ⟨t, ht, hmessage⟩

/-- **What a problem says holds no newline**, although it may quote the text. -/
theorem newline_notMem_message (hd : d ∈ (validate settings source).errors) :
    '\n' ∉ d.message.toList := by
  rw [validate, Validation.run] at hd
  split at hd
  · next limit _ =>
    obtain rfl := List.mem_singleton.mp hd
    show '\n' ∉ (_ ++ String.ofList (Text.decimal limit) ++ _ : String).toList
    rw [String.toList_append, String.toList_append, List.mem_append, List.mem_append]
    rintro ((hmem | hmem) | hmem)
    · exact absurd hmem (by decide +kernel)
    · rw [String.toList_ofList] at hmem
      exact Text.newline_notMem_decimal limit hmem
    · exact absurd hmem (by decide +kernel)
  · obtain ⟨e, he, rfl⟩ := List.mem_map.mp hd
    rcases Verdict.message_of_mem_report he with ⟨t, ht, hfault⟩ | ⟨e', found, hfound, hmessage⟩
    · exact (newline_notMem_of_mem_tokenize ht).2 _ hfault
    · show '\n' ∉ e.message.toList
      rw [hmessage]
      refine e'.newline_notMem_message ?_
      rcases hfound with rfl | ⟨t, ht, rfl⟩
      · exact List.not_mem_nil
      · exact (newline_notMem_of_mem_tokenize ht).1

/-- The line that a problem shows holds no newline. -/
theorem newline_notMem_lineContent (hd : d ∈ (validate settings source).errors) :
    '\n' ∉ d.lineContent.toList := by
  rw [validate, Validation.run] at hd
  split at hd
  · obtain rfl := List.mem_singleton.mp hd
    exact List.not_mem_nil
  · obtain ⟨e, -, rfl⟩ := List.mem_map.mp hd
    show '\n' ∉ (String.ofList (Text.line source e.line)).toList
    rw [String.toList_ofList]
    exact Text.newline_notMem_line source e.line

/-! ### Lines on a problem -/

namespace Diagnostic

theorem toList_headline (d : Diagnostic) :
    d.headline.toList = "line ".toList ++ Text.decimal d.line ++ ", word ".toList ++
      Text.decimal d.word ++ ": ".toList ++ d.message.toList := by
  simp only [headline, String.toList_append, String.toList_ofList]

theorem isQuote_headline (d : Diagnostic) : Report.isQuote d.headline.toList = false := by
  rw [toList_headline]
  rfl

theorem isQuote_of_mem_quotation {line : List Char} (h : line ∈ d.quotation source) :
    Report.isQuote line = true := by
  obtain ⟨rest, rfl⟩ : ∃ rest, line = Report.margin ++ rest := by
    rcases List.mem_cons.mp h with rfl | h
    · exact ⟨_, rfl⟩
    · obtain ⟨column, -, rfl⟩ := List.mem_map.mp h
      exact ⟨_, rfl⟩
  exact List.isPrefixOf_iff_prefix.mpr (List.prefix_append Report.margin rest)

/-- A problem of a text that has a line has a column in it. -/
theorem exists_column? (hd : d ∈ (validate settings source).errors) (hline : d.line ≠ 0) :
    ∃ column, d.column? source = some column := by
  obtain ⟨hzero, -⟩ | ⟨t, -, hpoints, front, back, rfl, hbytes, -, -⟩ :=
    unplaced_or_exists_shows hd
  · exact absurd hzero hline
  · refine ⟨(lastLine front).length, ?_⟩
    rw [column?, hpoints.2.2]
    show (Text.splitAtByte? t.span.start (front ++ back)).bind _ = _
    rw [Text.splitAtByte?_eq_some_iff.mpr ⟨rfl, hbytes⟩]
    rfl

/-- **The lines on a problem of a text tell it.** -/
theorem toldBy_plainLines (hd : d ∈ (validate settings source).errors) :
    d.ToldBy (d.plainLines source) where
  head?_eq := congrArg some d.toList_headline
  isQuote_head line hline := by
    obtain rfl := Option.some.inj hline
    exact d.isQuote_headline
  isQuote_tail line hline := by
    rw [plainLines, List.tail_cons] at hline
    split at hline
    · cases hline
    · exact isQuote_of_mem_quotation hline
  length_tail := by
    rw [plainLines, List.tail_cons]
    split
    · rfl
    · next hline =>
      obtain ⟨column, hcolumn⟩ := exists_column? hd hline
      rw [quotation, hcolumn]
      rfl

theorem newline_notMem_plainLines (hd : d ∈ (validate settings source).errors) :
    ∀ line ∈ d.plainLines source, '\n' ∉ line := by
  have hmargin : '\n' ∉ Report.margin := by decide
  have hheadline : '\n' ∉ d.headline.toList := by
    have hfixed : '\n' ∉ "line ".toList ∧ '\n' ∉ ", word ".toList ∧ '\n' ∉ ": ".toList := by decide
    rw [toList_headline]
    simp only [List.mem_append, not_or]
    exact ⟨⟨⟨⟨⟨hfixed.1, Text.newline_notMem_decimal _⟩, hfixed.2.1⟩,
      Text.newline_notMem_decimal _⟩, hfixed.2.2⟩, newline_notMem_message hd⟩
  have hshown : '\n' ∉ d.shownLine := by
    obtain ⟨⟨count, hcontent⟩, -⟩ := d.shownLine_append
    have hline := newline_notMem_lineContent hd
    rw [hcontent, List.mem_append, not_or] at hline
    exact hline.1
  intro line hline
  rcases List.mem_cons.mp hline with rfl | hline
  · exact hheadline
  · split at hline
    · cases hline
    · rcases List.mem_cons.mp hline with rfl | hline
      · simp [hmargin, hshown]
      · obtain ⟨column, -, rfl⟩ := List.mem_map.mp hline
        simp [hmargin, List.mem_replicate]

end Diagnostic

/-! ### Blocks -/

namespace Report

variable {ds : List Diagnostic} {bs : List (List (List Char))}

/-- The lines of a block are not parted. -/
theorem blocks_of_toldBy {block : List (List Char)} (h : d.ToldBy block) :
    blocks block = [block] := by
  obtain ⟨head, rest, rfl⟩ : ∃ head rest, block = head :: rest := by
    cases block with
    | nil => cases h.head?_eq
    | cons head rest => exact ⟨head, rest, rfl⟩
  refine List.splitBy_of_isChain (List.cons_ne_nil head rest) (List.Pairwise.isChain ?_)
  have hrest : ∀ line ∈ rest, isQuote line = true := h.isQuote_tail
  exact List.pairwise_cons.mpr
    ⟨hrest, List.pairwise_of_forall_mem_list fun _ _ line hline => hrest line hline⟩

/-- **Blocks one after the other are parted again.** -/
theorem blocks_flatten (h : List.Forall₂ Diagnostic.ToldBy ds bs) : blocks bs.flatten = bs := by
  induction h with
  | nil => rfl
  | @cons d block ds bs hblock hbs ih =>
    have hnext : ∀ line ∈ bs.flatten.head?, isQuote line = false := by
      cases hbs with
      | nil => exact fun _ hline => absurd hline (Option.not_mem_none _)
      | @cons d' block' ds bs hblock' hbs =>
        intro line hline
        refine hblock'.isQuote_head line ?_
        rw [List.flatten_cons, List.head?_append, hblock'.head?_eq] at hline
        rw [hblock'.head?_eq]
        exact hline
    rw [List.flatten_cons, blocks, List.splitBy_append fun _ _ line hline => hnext line hline]
    exact congrArg₂ (· ++ ·) (blocks_of_toldBy hblock) ih

/-- The lines that do not quote the text are the headlines. -/
theorem filter_flatten (h : List.Forall₂ Diagnostic.ToldBy ds bs) :
    bs.flatten.filter (fun line => !isQuote line) = ds.map (·.headline.toList) := by
  induction h with
  | nil => rfl
  | @cons d block ds bs hblock hbs ih =>
    cases block with
    | nil => cases hblock.head?_eq
    | cons head rest =>
      have hhead : isQuote head = false := hblock.isQuote_head head rfl
      have hrest : rest.filter (fun line => !isQuote line) = [] :=
        List.filter_eq_nil_iff.mpr fun line hline => by simp [hblock.isQuote_tail line hline]
      obtain rfl : head = d.headline.toList := by
        rw [d.toList_headline]
        exact Option.some.inj hblock.head?_eq
      rw [List.flatten_cons, List.filter_append, ih, List.filter_cons_of_pos (by simp [hhead]),
        hrest]
      rfl

end Report

/-- **A report for reading can be parted into its problems.**  The report on a valid text is `OK`.
Any other is a text of lines, each with a newline behind it; those that do not quote the text are
the headlines of the problems in order, and behind each headline two lines quote the text, or none
if the problem has no line.  No line is broken in two, because neither what a problem says nor the
line that it shows holds a newline. -/
theorem render_text_splits (settings : Settings) (source : List Char) :
    ((validate settings source).isValid = true →
      (validate settings source).render source .text = "OK\n".toList) ∧
    ((validate settings source).isValid = false → ∃ lines,
      Text.lines ((validate settings source).render source .text) = lines ++ [[]] ∧
      lines.filter (fun line => !Report.isQuote line) =
        (validate settings source).errors.map (·.headline.toList) ∧
      List.Forall₂ Diagnostic.ToldBy (validate settings source).errors (Report.blocks lines)) ∧
    ∀ d ∈ (validate settings source).errors,
      '\n' ∉ d.message.toList ∧ '\n' ∉ d.lineContent.toList := by
  refine ⟨Report.plain_of_isValid, fun hinvalid => ?_, fun d hd =>
    ⟨newline_notMem_message hd, newline_notMem_lineContent hd⟩⟩
  have htold : List.Forall₂ Diagnostic.ToldBy (validate settings source).errors
      ((validate settings source).errors.map (·.plainLines source)) :=
    List.forall₂_map_right_iff.mpr (List.forall₂_same.mpr fun d hd =>
      Diagnostic.toldBy_plainLines hd)
  have hlines : (validate settings source).plainLines source =
      ((validate settings source).errors.map (·.plainLines source)).flatten := by
    rw [Report.plainLines, hinvalid, if_neg Bool.false_ne_true, List.flatMap_def]
  refine ⟨(validate settings source).plainLines source, Text.lines_flatMap_newline ?_, ?_, ?_⟩
  · intro line hline
    rw [Report.plainLines, hinvalid, if_neg Bool.false_ne_true] at hline
    obtain ⟨d, hd, hline⟩ := List.mem_flatMap.mp hline
    exact Diagnostic.newline_notMem_plainLines hd line hline
  · rw [hlines, Report.filter_flatten htold]
  · rw [hlines, Report.blocks_flatten htold]
    exact htold

/-- A string that is not closed before its line ends in a carriage return, and a stray character. -/
theorem render_text_splits_openQuotation :
    (validate {} "\"  | \r\n@".toList).isValid = false ∧
    (∃ lines, Text.lines ((validate {} "\"  | \r\n@".toList).render "\"  | \r\n@".toList .text) =
        lines ++ [[]] ∧
      lines.filter (fun line => !Report.isQuote line) =
        ["line 1, word 1: Unterminated string".toList,
          "line 2, word 1: Unexpected character: '@'".toList] ∧
      List.Forall₂ Diagnostic.ToldBy (validate {} "\"  | \r\n@".toList).errors
        (Report.blocks lines)) ∧
    (validate {} "DROP TABLE t".toList).isValid = true ∧
    (validate {} "DROP TABLE t".toList).render "DROP TABLE t".toList .text = "OK\n".toList := by
  have hinvalid : (validate {} "\"  | \r\n@".toList).isValid = false := by decide +kernel
  have hvalid : (validate {} "DROP TABLE t".toList).isValid = true := by decide +kernel
  obtain ⟨lines, hlines, hheadlines, hblocks⟩ := (render_text_splits {} _).2.1 hinvalid
  refine ⟨hinvalid, ⟨lines, hlines, hheadlines.trans ?_, hblocks⟩, hvalid,
    (render_text_splits {} _).1 hvalid⟩
  decide +kernel

end SqlChecker
