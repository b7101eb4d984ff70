import Mathlib.Data.List.TakeWhile
import Mathlib.Tactic.SplitIfs
import SqlChecker.Lexeme.Scan
import SqlChecker.Lexeme.Trivia

/-! # Lexemes are taken maximally

`Lexeme.Precedes` says of a lexeme what its characters are, and that the text behind it does not go
on with it.  A text that begins with no trivia is scanned as a lexeme just if the lexeme stands in
front of it in this sense (`Lexeme.scan?_eq_some_iff`), so that scanning takes each form as far as
it reaches, and finds every lexeme that stands there.
-/
namespace SqlChecker

/-! ### What is said of a fault -/

namespace LexicalFault

theorem toList_message_stray (c : Char) :
    (stray c).message.toList = "Unexpected character: '".toList ++ c :: "'".toList := by
  have h : (stray c).message = "Unexpected character: '" ++ String.singleton c ++ "'" := rfl
  rw [h, String.toList_append, String.toList_append, String.toList_singleton,
    List.append_assoc, List.singleton_append]

/-- Only what is said of a stray character has an `e` for its third letter. -/
theorem getElem?_message_eq_iff (f : LexicalFault) :
    f.message.toList[2]? = some 'e' ↔ ∃ c, f = stray c := by
  cases f with
  | stray c =>
    rw [toList_message_stray, List.getElem?_append_left (by decide)]
    exact ⟨fun _ => ⟨c, rfl⟩, fun _ => by decide⟩
  | openQuotation => exact ⟨fun h => absurd h (by decide), fun ⟨_, h⟩ => nomatch h⟩
  | openComment => exact ⟨fun h => absurd h (by decide), fun ⟨_, h⟩ => nomatch h⟩

/-- What is said of a fault tells which one it is. -/
theorem message_injective : Function.Injective message := by
  intro f g h
  have hstray : (∃ c, f = stray c) ↔ ∃ c, g = stray c := by
    rw [← getElem?_message_eq_iff, ← getElem?_message_eq_iff, h]
  cases f with
  | stray c =>
    obtain ⟨d, rfl⟩ := hstray.mp ⟨c, rfl⟩
    have hchars := congrArg String.toList h
    rw [toList_message_stray, toList_message_stray] at hchars
    rw [(List.cons.inj (List.append_cancel_left hchars)).1]
  | openQuotation =>
    cases g with
    | stray d => exact nomatch hstray.mpr ⟨d, rfl⟩
    | openQuotation => rfl
    | openComment => exact absurd h (by decide)
  | openComment =>
    cases g with
    | stray d => exact nomatch hstray.mpr ⟨d, rfl⟩
    | openQuotation => exact absurd h (by decide)
    | openComment => rfl

end LexicalFault

namespace Lexeme

/-! ### The forms of lexemes -/

/-- A letter or an underscore, and then letters, digits and underscores. -/
def IsWord (text : List Char) : Prop :=
  ∃ c cs, text = c :: cs ∧ (c.isAlpha = true ∨ c = '_') ∧
    ∀ d ∈ cs, d.isAlphanum = true ∨ d = '_'

/-- Digits, of which there is one, and perhaps a point and further digits. -/
def IsNumeral (text : List Char) : Prop :=
  ∃ whole, whole ≠ [] ∧ (∀ c ∈ whole, c.isDigit = true) ∧
    (text = whole ∨ ∃ places, (∀ c ∈ places, c.isDigit = true) ∧ text = whole ++ '.' :: places)

/-- One of the two quotes. -/
def IsQuote (c : Char) : Prop := c = '\'' ∨ c = '"'

/-- A character that begins no trivia and no other lexeme. -/
structure IsStray (c : Char) : Prop where
  blank : Text.isBlank c = false
  word : ¬ (c.isAlpha = true ∨ c = '_')
  digit : c.isDigit = false
  quote : ¬ IsQuote c
  operator : Operator.ofChar? c = none
  punctuation : Punctuation.ofChar? c = none

/-- A lexeme stands in front of a text, and goes as far as it can. -/
def Precedes : Lexeme → List Char → Prop
  | word text, rest => IsWord text ∧ ∀ c ∈ rest.head?, ¬ (c.isAlphanum = true ∨ c = '_')
  | number text, rest =>
    IsNumeral text ∧ ∀ c ∈ rest.head?, c.isDigit = false ∧ ('.' ∉ text → c ≠ '.')
  | quotation quote content, rest => IsQuote quote ∧ '\n' ∉ content ∧ rest.head? ≠ some quote
  | openQuotation quote content, rest =>
    IsQuote quote ∧ '\n' ∉ content ∧ ∀ c ∈ rest.head?, c = '\n'
  | operator op text, rest =>
    Operator.ofSpelling? text = some op ∧ ∀ c, text = [c] → ∀ d ∈ rest.head?,
      Operator.ofPair? c d = none ∧ ¬ (c = '-' ∧ d = '-') ∧ ¬ (c = '/' ∧ d = '*')
  | punctuation _, _ => True
  | stray c, _ => IsStray c
  | openComment body, rest => ¬ ['*', '/'] <:+: body ∧ rest = []

/-! ### Characters -/

theorem startsWord_iff {c : Char} : startsWord c = true ↔ c.isAlpha = true ∨ c = '_' := by
  simp [startsWord]

theorem continuesWord_iff {c : Char} : continuesWord c = true ↔ c.isAlphanum = true ∨ c = '_' := by
  simp [continuesWord]

theorem continuesWord_eq_false_iff {c : Char} :
    continuesWord c = false ↔ ¬ (c.isAlphanum = true ∨ c = '_') := by
  rw [← continuesWord_iff, Bool.not_eq_true]

/-- What is an operator by itself begins neither a word nor a number nor a quotation. -/
theorem startsWord_of_ofChar? {c : Char} {op : Operator} (h : Operator.ofChar? c = some op) :
    startsWord c = false ∧ c.isDigit = false ∧ ¬ IsQuote c ∧ Text.isBlank c = false := by
  unfold Operator.ofChar? at h
  split at h <;> first | (refine ⟨rfl, rfl, ?_, rfl⟩; simp [IsQuote]) | cases h

theorem punctuation_char (p : Punctuation) :
    startsWord p.char = false ∧ p.char.isDigit = false ∧ ¬ IsQuote p.char ∧
      Operator.ofChar? p.char = none ∧ Text.isBlank p.char = false := by
  cases p <;> simp [Punctuation.char, IsQuote] <;> decide

theorem startsWord_of_isDigit {c : Char} (h : c.isDigit = true) : startsWord c = false := by
  rw [← Bool.not_eq_true, startsWord_iff]
  rintro (ha | rfl)
  · replace h : (decide (c.val ≥ '0'.val) && decide (c.val ≤ '9'.val)) = true := h
    replace ha : (decide (c.val ≥ 'A'.val ∧ c.val ≤ 'Z'.val) ||
        decide (c.val ≥ 'a'.val) && decide (c.val ≤ 'z'.val)) = true := ha
    simp only [Bool.or_eq_true, Bool.and_eq_true, decide_eq_true_eq, UInt32.le_iff_toNat_le,
      ge_iff_le] at h ha
    have : 'A'.val.toNat = 65 := rfl
    have : 'a'.val.toNat = 97 := rfl
    have : '9'.val.toNat = 57 := rfl
    omega
  · cases h

/-- A part of one class and what does not begin with it. -/
theorem span_append {p : Char → Bool} {front rest : List Char} (hf : ∀ c ∈ front, p c = true)
    (hr : ∀ c ∈ rest.head?, p c = false) :
    (front ++ rest).takeWhile p = front ∧ (front ++ rest).dropWhile p = rest := by
  rw [List.takeWhile_append_of_pos hf, List.dropWhile_append_of_pos hf]
  cases rest with
  | nil => simp
  | cons c rest => simp [hr c rfl]

theorem head?_dropWhile {p : Char → Bool} {text : List Char} :
    ∀ c ∈ (text.dropWhile p).head?, p c = false := by
  intro c hc
  have hnot := List.head?_dropWhile_not p text
  rwa [hc] at hnot

end Lexeme

/-! ### What begins no trivia -/

namespace Trivia

/-- A comment is open just if no closing mark follows. -/
theorem splitComment?_eq_none_iff {text : List Char} :
    splitComment? text = none ↔ ¬ ['*', '/'] <:+: text := by
  fun_induction splitComment? text with
  | case1 => simp
  | case2 c => simp [List.infix_cons_iff]
  | case3 c d rest hcd =>
    obtain ⟨rfl, rfl⟩ := hcd
    simp [List.infix_cons_iff]
  | case4 c d rest hcd ih =>
    have hfront : ¬ ['*', '/'] <+: c :: d :: rest := by
      simp only [List.cons_prefix_cons, List.nil_prefix, and_true]
      intro hmark
      exact hcd (hmark.imp Eq.symm Eq.symm)
    rw [Option.map_eq_none_iff, ih, List.infix_cons_iff (a := c), or_iff_right hfront]

theorem splitPiece?_cons_eq_none_iff {c : Char} {rest : List Char} :
    splitPiece? (c :: rest) = none ↔ Text.isBlank c = false ∧
      ¬ (c = '-' ∧ rest.head? = some '-') ∧
      (c = '/' → rest.head? = some '*' → ¬ ['*', '/'] <:+: rest.tail) := by
  rw [splitPiece?]
  split_ifs with hblank hline hblock
  · simp [hblank]
  · simp [hline]
  · obtain ⟨rfl, hr⟩ := hblock
    rw [Option.map_eq_none_iff, splitComment?_eq_none_iff]
    simp [hr, show Text.isBlank '/' = false from rfl]
  · simp only [true_iff]
    exact ⟨by simpa using hblank, hline, fun hc hr => absurd ⟨hc, hr⟩ hblock⟩

/-- No trivia begins with a character of a class that has neither blanks nor the characters with
which comments begin. -/
theorem splitPiece?_of_class {p : Char → Bool} {c : Char} (hc : p c = true)
    (hp : [' ', '\t', '\n', '\r', '-', '/'].any p = false) (rest : List Char) :
    splitPiece? (c :: rest) = none := by
  have hne : ∀ d ∈ [' ', '\t', '\n', '\r', '-', '/'], c ≠ d := by
    rintro d hd rfl
    exact absurd hc (List.any_eq_false.mp hp c hd)
  simp only [List.mem_cons, List.not_mem_nil, or_false, forall_eq_or_imp, forall_eq] at hne
  simp [splitPiece?_cons_eq_none_iff, Text.isBlank, hne]

end Trivia

/-! ### Quotations -/

namespace Quotation

variable {quote : Char} {content rest : List Char}

/-- The content read ends before the end of the line. -/
theorem newline_notMem_content (hq : quote ≠ '\n') (text : List Char) :
    '\n' ∉ (read quote text).content := by
  fun_induction read quote text with
  | case5 rest ih => simpa [cons, Ne.symm hq] using ih
  | case8 c d rest hc hn ih => simpa [cons, Ne.symm hn] using ih
  | case4 c hc hn => simpa using Ne.symm hn
  | _ => simp

/-- A quotation goes on up to a single quote, or to the end of the line. -/
theorem head?_rest (quote : Char) (text : List Char) :
    if (read quote text).closed then (read quote text).rest.head? ≠ some quote
    else ∀ c ∈ (read quote text).rest.head?, c = '\n' := by
  fun_induction read quote text with
  | case5 rest ih => exact ih
  | case8 c d rest hc hn ih => exact ih
  | _ => simp_all

theorem read_doubled_cons {c : Char} (hn : c ≠ '\n') (text : List Char) :
    read quote ((if c = quote then [c, c] else [c]) ++ text) = (read quote text).cons c := by
  by_cases hc : c = quote
  · simp [hc, read]
  · cases text with
    | nil => simp [hc, hn, read, cons]
    | cons d text => simp [hc, hn, read]

/-- What is written between quotes is read as the content. -/
theorem read_doubled (hn : '\n' ∉ content) :
    read quote (Lexeme.doubled quote content ++ rest) =
      { read quote rest with content := content ++ (read quote rest).content } := by
  induction content with
  | nil => rfl
  | cons c content ih =>
    simp only [List.mem_cons, not_or] at hn
    rw [Lexeme.doubled_cons, List.append_assoc, read_doubled_cons (Ne.symm hn.1), ih hn.2]
    rfl

/-- A single quote closes the quotation. -/
theorem read_close (h : rest.head? ≠ some quote) :
    read quote (quote :: rest) = ⟨[], true, rest⟩ := by
  cases rest with
  | nil => simp [read]
  | cons d rest => simp [read, show d ≠ quote by simpa using h]

/-- The end of the line, or of the text, leaves the quotation open. -/
theorem read_open (hq : quote ≠ '\n') (h : ∀ c ∈ rest.head?, c = '\n') :
    read quote rest = ⟨[], false, rest⟩ := by
  rcases rest with - | ⟨c, - | ⟨d, rest⟩⟩
  · rfl
  · simp [read, h c rfl, Ne.symm hq]
  · simp [read, h c rfl, Ne.symm hq]

end Quotation

namespace Lexeme

variable {first : Char} {text rest : List Char} {x : Lexeme}

/-! ### Scanning takes no less than a lexeme -/

theorem precedes_scanNumber (hf : first.isDigit = true) (text : List Char) :
    (scanNumber first text).1.Precedes (scanNumber first text).2 := by
  have hwhole : ∀ c ∈ first :: text.takeWhile Char.isDigit, c.isDigit = true := by
    intro c hc
    rcases List.mem_cons.mp hc with rfl | hc
    · exact hf
    · exact List.mem_takeWhile_imp hc
  unfold scanNumber
  split
  · next rest hrest =>
    refine ⟨⟨_, List.cons_ne_nil _ _, hwhole, .inr ⟨_, fun c hc => List.mem_takeWhile_imp hc, rfl⟩⟩,
      fun c hc => ⟨head?_dropWhile c hc, fun hpoint => absurd ?_ hpoint⟩⟩
    simp
  · next rest hrest =>
    refine ⟨⟨_, List.cons_ne_nil _ _, hwhole, .inl rfl⟩, ?_⟩
    intro (c : Char) (hc : c ∈ (text.dropWhile Char.isDigit).head?)
    refine ⟨head?_dropWhile c hc, fun _ he => ?_⟩
    obtain ⟨after, hafter⟩ := List.head?_eq_some_iff.mp hc
    exact hrest after (by rw [hafter, he])

theorem IsQuote.ne_newline {c : Char} (h : IsQuote c) : c ≠ '\n' := by
  rcases h with rfl | rfl <;> decide

theorem precedes_quotation (hq : IsQuote first) (text : List Char) :
    ((Quotation.read first text).lexeme first).Precedes (Quotation.read first text).rest := by
  have hcontent := Quotation.newline_notMem_content hq.ne_newline text
  have hrest := Quotation.head?_rest first text
  unfold Quotation.lexeme
  split_ifs at hrest ⊢ with hclosed
  · exact ⟨hq, hcontent, hrest⟩
  · exact ⟨hq, hcontent, hrest⟩

theorem precedes_scanOperator {op : Operator} (h : Operator.ofChar? first = some op)
    (hline : ¬ (first = '-' ∧ text.head? = some '-'))
    (hblock : ¬ (first = '/' ∧ text.head? = some '*')) :
    (scanOperator op first text).1.Precedes (scanOperator op first text).2 := by
  unfold scanOperator
  split
  · exact ⟨h, fun c _ d hd => by cases hd⟩
  · next second rest =>
    split
    · next pair hpair => exact ⟨hpair, fun c hc => by cases hc⟩
    · next hpair =>
      refine ⟨h, fun c hc d hd => ?_⟩
      obtain rfl : first = c := by simpa using hc
      obtain rfl : second = d := by simpa using hd
      exact ⟨hpair, by simpa using hline, by simpa using hblock⟩

theorem precedes_scanFrom (h : Trivia.splitPiece? (first :: text) = none) :
    (scanFrom first text).1.Precedes (scanFrom first text).2 := by
  obtain ⟨hblank, hline, hopen⟩ := Trivia.splitPiece?_cons_eq_none_iff.mp h
  unfold scanFrom
  split_ifs with hword hdigit hquote hblock
  · refine ⟨⟨_, _, rfl, startsWord_iff.mp hword, fun d hd =>
      continuesWord_iff.mp (List.mem_takeWhile_imp hd)⟩, fun c hc => ?_⟩
    exact continuesWord_eq_false_iff.mp (head?_dropWhile c hc)
  · exact precedes_scanNumber hdigit text
  · exact precedes_quotation hquote text
  · exact ⟨hopen hblock.1 hblock.2, rfl⟩
  · split
    · next op hop => exact precedes_scanOperator hop hline hblock
    · next hop =>
      split
      · trivial
      · next hpunctuation =>
        exact ⟨hblank, fun hw => hword (startsWord_iff.mpr hw), Bool.eq_false_iff.mpr hdigit,
          hquote, hop, hpunctuation⟩

/-! ### Scanning finds the lexeme that stands there -/

theorem IsNumeral.exists_cons (h : IsNumeral text) :
    ∃ c cs, text = c :: cs ∧ c.isDigit = true := by
  obtain ⟨whole, hne, hwhole, htext⟩ := h
  obtain ⟨c, whole, rfl⟩ := List.exists_cons_of_ne_nil hne
  rcases htext with rfl | ⟨places, -, rfl⟩ <;> exact ⟨c, _, rfl, hwhole c List.mem_cons_self⟩

theorem scanNumber_of_precedes (hn : IsNumeral (first :: text))
    (hr : ∀ c ∈ rest.head?, c.isDigit = false ∧ ('.' ∉ first :: text → c ≠ '.')) :
    scanNumber first (text ++ rest) = (number (first :: text), rest) := by
  obtain ⟨whole, hne, hwhole, htext⟩ := hn
  obtain ⟨c, whole, rfl⟩ := List.exists_cons_of_ne_nil hne
  have hdigits : ∀ d ∈ whole, d.isDigit = true := fun d hd => hwhole d (List.mem_cons_of_mem c hd)
  have hrest : ∀ d ∈ rest.head?, d.isDigit = false := fun d hd => (hr d hd).1
  rcases htext with htext | ⟨places, hplaces, htext⟩
  · obtain ⟨rfl, rfl⟩ := List.cons.inj htext
    obtain ⟨htake, hdrop⟩ := span_append hdigits hrest
    have hpoint : '.' ∉ first :: text := fun hmem => absurd (hwhole _ hmem) (by decide)
    unfold scanNumber
    split
    · next after hafter =>
      rw [hdrop] at hafter
      subst hafter
      exact absurd rfl ((hr '.' rfl).2 hpoint)
    · rw [htake, hdrop]
  · obtain ⟨rfl, rfl⟩ := List.cons.inj htext
    have hstop : ∀ d ∈ ('.' :: (places ++ rest)).head?, d.isDigit = false := by
      intro d hd
      obtain rfl := Option.some.inj hd
      rfl
    obtain ⟨htake, hdrop⟩ := span_append hdigits hstop
    obtain ⟨htake', hdrop'⟩ := span_append hplaces hrest
    show scanNumber first (whole ++ '.' :: places ++ rest) = _
    rw [List.append_assoc, List.cons_append, scanNumber, hdrop, htake]
    simp only [htake', hdrop']
    rfl

theorem scanOperator_of_single {op : Operator}
    (hr : ∀ d ∈ rest.head?, Operator.ofPair? first d = none) :
    scanOperator op first rest = (operator op [first], rest) := by
  cases rest with
  | nil => rfl
  | cons d rest => simp [scanOperator, hr d rfl]

theorem scanFrom_quote (hq : IsQuote first) (text : List Char) :
    scanFrom first text =
      ((Quotation.read first text).lexeme first, (Quotation.read first text).rest) := by
  rcases hq with rfl | rfl <;> simp [scanFrom, startsWord]

/-- What begins none of the longer forms is an operator, a structural character, or neither. -/
theorem scanFrom_eq (hword : startsWord first = false) (hdigit : first.isDigit = false)
    (hquote : ¬ IsQuote first) (hblock : ¬ (first = '/' ∧ text.head? = some '*')) :
    scanFrom first text = match Operator.ofChar? first with
      | some op => scanOperator op first text
      | none => match Punctuation.ofChar? first with
        | some p => (punctuation p, text)
        | none => (stray first, text) := by
  have hquote' : ¬ (first = '\'' ∨ first = '"') := hquote
  rw [scanFrom, if_neg (by simp [hword]), if_neg (by simp [hdigit]), if_neg hquote']
  exact if_neg hblock

theorem scanFrom_of_ofChar? {op : Operator} (h : Operator.ofChar? first = some op)
    (hblock : ¬ (first = '/' ∧ text.head? = some '*')) :
    scanFrom first text = scanOperator op first text := by
  obtain ⟨hword, hdigit, hquote, -⟩ := startsWord_of_ofChar? h
  rw [scanFrom_eq hword hdigit hquote hblock, h]

/-- **A lexeme is found where it stands**, and all of it. -/
theorem scan?_of_precedes (h : x.Precedes rest) : scan? (x.text ++ rest) = some (x, rest) := by
  cases x with
  | word text =>
    obtain ⟨⟨c, cs, rfl, hc, hcs⟩, hr⟩ := h
    obtain ⟨htake, hdrop⟩ := span_append (fun d hd => continuesWord_iff.mpr (hcs d hd))
      (fun d hd => continuesWord_eq_false_iff.mpr (hr d hd))
    simp [Lexeme.text, scan?, scanFrom, startsWord_iff.mpr hc, htake, hdrop]
  | number text =>
    obtain ⟨hn, hr⟩ := h
    obtain ⟨c, text, rfl, hc⟩ := hn.exists_cons
    have hword : startsWord c = false := startsWord_of_isDigit hc
    rw [Lexeme.text, List.cons_append, scan?, scanFrom, if_neg (by simp [hword]), if_pos hc,
      scanNumber_of_precedes hn hr]
  | quotation quote content =>
    obtain ⟨hq, hcontent, hr⟩ := h
    have hread : Quotation.read quote (doubled quote content ++ quote :: rest) =
        ⟨content, true, rest⟩ := by
      rw [Quotation.read_doubled hcontent, Quotation.read_close hr, List.append_nil]
    rw [Lexeme.text, List.cons_append, List.append_assoc, List.singleton_append, scan?,
      scanFrom_quote hq, hread]
    rfl
  | openQuotation quote content =>
    obtain ⟨hq, hcontent, hr⟩ := h
    have hread : Quotation.read quote (doubled quote content ++ rest) =
        ⟨content, false, rest⟩ := by
      rw [Quotation.read_doubled hcontent, Quotation.read_open hq.ne_newline hr, List.append_nil]
    rw [Lexeme.text, List.cons_append, scan?, scanFrom_quote hq, hread]
    rfl
  | operator op text =>
    obtain ⟨hop, hr⟩ := h
    rcases text with - | ⟨c, - | ⟨d, - | ⟨e, text⟩⟩⟩
    · cases hop
    · have hop : Operator.ofChar? c = some op := hop
      rw [Lexeme.text, List.singleton_append, scan?, scanFrom_of_ofChar? hop,
        scanOperator_of_single fun d hd => (hr c rfl d hd).1]
      rintro ⟨hc, hd⟩
      exact (hr c rfl _ hd).2.2 ⟨hc, rfl⟩
    · have hop : Operator.ofPair? c d = some op := hop
      obtain ⟨single, hsingle⟩ :=
        Option.isSome_iff_exists.mp (Operator.isSome_ofChar?_of_ofPair? hop)
      rw [Lexeme.text, List.cons_append, List.singleton_append, scan?, scanFrom_of_ofChar? hsingle,
        scanOperator, hop]
      rintro ⟨rfl, hd⟩
      obtain rfl := Option.some.inj hd
      cases hop
    · cases hop
  | punctuation p =>
    obtain ⟨hword, hdigit, hquote, hop, -⟩ := punctuation_char p
    have hblock : ¬ (p.char = '/' ∧ rest.head? = some '*') := by cases p <;> simp [Punctuation.char]
    rw [Lexeme.text, List.singleton_append, scan?, scanFrom_eq hword hdigit hquote hblock, hop,
      Punctuation.ofChar?_eq_some_iff.mpr rfl]
  | stray c =>
    have hword : startsWord c = false := by
      rw [← Bool.not_eq_true, startsWord_iff]
      exact h.word
    have hblock : ¬ (c = '/' ∧ rest.head? = some '*') := by
      rintro ⟨rfl, -⟩
      cases h.operator
    rw [Lexeme.text, List.singleton_append, scan?, scanFrom_eq hword h.digit h.quote hblock,
      h.operator, h.punctuation]
  | openComment body =>
    obtain ⟨-, rfl⟩ := h
    rw [List.append_nil]
    rfl

theorem splitPiece?_quote (hq : IsQuote first) (text : List Char) :
    Trivia.splitPiece? (first :: text) = none :=
  Trivia.splitPiece?_of_class (p := fun c => c = '\'' ∨ c = '"')
    (by simpa [IsQuote] using hq) (by decide) text

/-- No trivia begins where a lexeme stands. -/
theorem splitPiece?_of_precedes (h : x.Precedes rest) :
    Trivia.splitPiece? (x.text ++ rest) = none := by
  cases x with
  | word text =>
    obtain ⟨⟨c, cs, rfl, hc, -⟩, -⟩ := h
    exact Trivia.splitPiece?_of_class (startsWord_iff.mpr hc) (by decide) _
  | number text =>
    obtain ⟨c, cs, rfl, hc⟩ := h.1.exists_cons
    exact Trivia.splitPiece?_of_class hc (by decide) _
  | quotation quote content => exact splitPiece?_quote h.1 _
  | openQuotation quote content => exact splitPiece?_quote h.1 _
  | operator op text =>
    obtain ⟨hop, hr⟩ := h
    rcases text with - | ⟨c, - | ⟨d, - | ⟨e, text⟩⟩⟩
    · cases hop
    · refine Trivia.splitPiece?_cons_eq_none_iff.mpr
        ⟨(startsWord_of_ofChar? hop).2.2.2, ?_, fun hc hd => ?_⟩
      · rintro ⟨hc, hd⟩
        exact (hr c rfl _ hd).2.1 ⟨hc, rfl⟩
      · exact absurd ⟨hc, rfl⟩ (hr c rfl _ hd).2.2
    · have hop : Operator.ofPair? c d = some op := hop
      refine Trivia.splitPiece?_of_class (p := fun c => c = '<' ∨ c = '>' ∨ c = '!') ?_
        (by decide) _
      unfold Operator.ofPair? at hop
      split at hop <;> first | rfl | cases hop
    · cases hop
  | punctuation p => cases p <;> rfl
  | stray c =>
    refine Trivia.splitPiece?_cons_eq_none_iff.mpr ⟨h.blank, ?_, ?_⟩
    · rintro ⟨rfl, -⟩
      cases h.operator
    · rintro rfl
      cases h.operator
  | openComment body =>
    obtain ⟨hbody, rfl⟩ := h
    rw [List.append_nil]
    exact Trivia.splitPiece?_cons_eq_none_iff.mpr ⟨rfl, by simp, fun _ _ => hbody⟩

/-- **Scanning takes each lexeme maximally.**  Where no trivia begins, the lexeme scanned is the one
that stands in front of the rest and goes as far as it can. -/
theorem scan?_eq_some_iff (h : Trivia.splitPiece? text = none) :
    scan? text = some (x, rest) ↔ text = x.text ++ rest ∧ x.Precedes rest := by
  constructor
  · intro hs
    refine ⟨(append_of_scan? hs).symm, ?_⟩
    cases text with
    | nil => cases hs
    | cons first text =>
      have hprecedes := precedes_scanFrom h
      rw [Option.some.inj hs] at hprecedes
      exact hprecedes
  · rintro ⟨rfl, hprecedes⟩
    exact scan?_of_precedes hprecedes

end Lexeme
end SqlChecker
