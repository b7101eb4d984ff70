import SqlChecker.Proofs.Lexing.Spelling

/-! # The layout of tokens

A lexeme that is no fault stands in front of a blank just as well as in front of whatever comes
behind it.  So the texts of tokens may be written with other trivia around them, as long as a blank
comes first behind each: they are read as the same kinds with the same values
(`exists_reads_of_mem_layouts`).
-/
namespace SqlChecker
open Computability

/-- Trivia that begins with a blank. -/
def Trivia.spacing : Language Char :=
  {text | text ∈ gap ∧ ∃ c ∈ text.head?, Text.isBlank c = true}

/-- Texts in order, with trivia between any two that begins with a blank. -/
def spaced : List (List Char) → Language Char
  | [] => 1
  | [text] => {text}
  | text :: next :: texts => {text} * Trivia.spacing * spaced (next :: texts)

/-- The layouts of texts: any trivia may stand in front of the first, and behind the last nothing or
trivia that begins with a blank. -/
def layouts (texts : List (List Char)) : Language Char :=
  Trivia.gap * spaced texts * (1 + Trivia.spacing)

/-- What a token is, apart from its place. -/
def Token.content (t : Token) : TokenKind × String := (t.kind, t.value)

/-- What the token of a lexeme is, apart from its place. -/
def Lexeme.content (x : Lexeme) : TokenKind × String := (x.kind, String.ofList x.value)

/-- A blank comes first, if anything does. -/
def BlankFirst (text : List Char) : Prop := ∀ c ∈ text.head?, Text.isBlank c = true

/-! ### Lexemes before a blank -/

/-- **A lexeme ends before a blank**, if it is no fault. -/
theorem Lexeme.Precedes.of_blankFirst {x : Lexeme} {rest rest' : List Char} (h : x.Precedes rest)
    (hx : ∀ message, x.kind ≠ .fault message) (hr : BlankFirst rest') : x.Precedes rest' := by
  cases x with
  | word text =>
    refine ⟨h.1, fun c hc => continuesWord_eq_false_iff.mp ?_⟩
    exact Text.eq_false_of_isBlank (by decide) (hr c hc)
  | number text =>
    refine ⟨h.1, fun c hc => ⟨Text.eq_false_of_isBlank (by decide) (hr c hc), ?_⟩⟩
    rintro - rfl
    exact absurd (hr '.' hc) (by decide)
  | quotation quote content =>
    refine ⟨h.1, h.2.1, fun hc => ?_⟩
    have hblank := hr quote hc
    rcases h.1 with rfl | rfl <;> cases hblank
  | openQuotation quote content => exact absurd rfl (hx _)
  | operator op text =>
    refine ⟨h.1, fun c hc d hd => ⟨?_, ?_, ?_⟩⟩
    · have hblank := Text.isBlank_iff.mp (hr d hd)
      simp only [List.mem_cons, List.not_mem_nil, or_false] at hblank
      rcases hblank with rfl | rfl | rfl | rfl <;> simp [Operator.ofPair?]
    · rintro ⟨-, rfl⟩
      exact absurd (hr _ hd) (by decide)
    · rintro ⟨-, rfl⟩
      exact absurd (hr _ hd) (by decide)
  | punctuation p => trivial
  | stray c => exact absurd rfl (hx _)
  | openComment body => exact absurd rfl (hx _)

/-! ### Readings of a layout -/

/-- What may stand behind the last text of a layout. -/
theorem mem_gap_of_end {text : List Char} (h : text ∈ 1 + Trivia.spacing) :
    text ∈ Trivia.gap ∧ BlankFirst text := by
  rcases h with h | ⟨hgap, c, hc, hblank⟩
  · rw [(Language.mem_one text).mp h]
    exact ⟨Trivia.nil_mem_gap, fun c hc => by cases hc⟩
  · refine ⟨hgap, fun d hd => ?_⟩
    rw [hc] at hd
    rwa [← Option.some.inj hd]

theorem mem_layouts_nil {text : List Char} (h : text ∈ layouts []) : text ∈ Trivia.gap := by
  obtain ⟨gap, hgap, rest, hrest, rfl⟩ := Language.mem_mul.mp h
  rw [spaced, mul_one] at hgap
  rw [← Trivia.gap_mul_gap]
  exact Language.append_mem_mul hgap (mem_gap_of_end hrest).1

/-- The first text of a layout, with the trivia in front of it and what comes behind it: a layout of
the other texts. -/
theorem exists_of_mem_layouts_cons {x : List Char} {xs : List (List Char)} {text : List Char}
    (h : text ∈ layouts (x :: xs)) :
    ∃ gap ∈ Trivia.gap, ∃ rest ∈ layouts xs, BlankFirst rest ∧ text = gap ++ x ++ rest := by
  cases xs with
  | nil =>
    obtain ⟨_, ⟨gap, hgap, _, rfl, rfl⟩, rest, hrest, rfl⟩ := h
    refine ⟨gap, hgap, rest, ?_, (mem_gap_of_end hrest).2, rfl⟩
    exact ⟨[], ⟨[], Trivia.nil_mem_gap, [], rfl, rfl⟩, rest, hrest, rfl⟩
  | cons y ys =>
    obtain ⟨_, ⟨gap, hgap, _, ⟨_, ⟨_, rfl, spacing, hspacing, rfl⟩, texts, htexts, rfl⟩, rfl⟩, rest,
      hrest, rfl⟩ := h
    refine ⟨gap, hgap, spacing ++ texts ++ rest, ?_, ?_, by simp⟩
    · exact ⟨_, ⟨spacing, hspacing.1, texts, htexts, rfl⟩, rest, hrest, rfl⟩
    · obtain ⟨-, c, hc, hblank⟩ := hspacing
      obtain ⟨tail, rfl⟩ := List.head?_eq_some_iff.mp hc
      intro d hd
      rwa [← Option.some.inj hd]

/-- **A layout of lexemes is read as the lexemes**, if none is a fault. -/
theorem exists_reads_of_mem_layouts {xs : List Lexeme} (hx : ∀ x ∈ xs, ∃ rest, x.Precedes rest)
    (hf : ∀ x ∈ xs, ∀ message, x.kind ≠ .fault message) {text : List Char}
    (h : text ∈ layouts (xs.map Lexeme.text)) (c : Cursor) :
    ∃ ts, Reads c ts text ∧ ts.map Token.content = xs.map Lexeme.content := by
  induction xs generalizing text c with
  | nil => exact ⟨[], .done (Trivia.mem_tail_of_mem_gap (mem_layouts_nil h)), rfl⟩
  | cons x xs ih =>
    obtain ⟨⟨_, hprecedes⟩, hxs⟩ := List.forall_mem_cons.mp hx
    obtain ⟨hfx, hfxs⟩ := List.forall_mem_cons.mp hf
    obtain ⟨gap, hgap, rest, hrest, hblank, rfl⟩ := exists_of_mem_layouts_cons h
    obtain ⟨ts, hts, hcontent⟩ := ih hxs hfxs hrest ((c.passAll gap).passLexeme x)
    refine ⟨_, .token hgap (hprecedes.of_blankFirst hfx hblank) hts, ?_⟩
    rw [List.map_cons, List.map_cons, hcontent]
    rfl

/-- The lexemes that the tokens of a text are, and their texts. -/
theorem Reads.exists_lexemes {c : Cursor} {ts : List Token} {text : List Char}
    (h : Reads c ts text) {front : List Char} (hfront : Text.byteLength front = c.offset) :
    ∃ xs : List Lexeme, (∀ x ∈ xs, ∃ rest, x.Precedes rest) ∧
      ts.map Token.content = xs.map Lexeme.content ∧
      ts.filterMap (fun t => t.span.slice? (front ++ text)) = xs.map Lexeme.text := by
  induction h generalizing front with
  | done => exact ⟨[], fun x hx => absurd hx List.not_mem_nil, rfl, rfl⟩
  | @token c x ts gap rest hgap hx _ ih =>
    have hfront' : Text.byteLength (front ++ gap ++ x.text) =
        ((c.passAll gap).passLexeme x).offset := by
      rw [Cursor.offset_passLexeme, Cursor.offset_passAll, Text.byteLength_append,
        Text.byteLength_append, hfront]
    obtain ⟨xs, hxs, hcontent, htexts⟩ := ih hfront'
    have hslice : ((c.passAll gap).token x).span.slice? (front ++ (gap ++ x.text ++ rest)) =
        some x.text := by
      refine Span.slice?_eq_some_iff.mpr ⟨front ++ gap, rest, by simp, ?_, ?_⟩
      · rw [Cursor.token, Cursor.offset_passAll, Text.byteLength_append, hfront]
      · rw [hfront', Cursor.offset_passLexeme]
        rfl
    refine ⟨x :: xs, List.forall_mem_cons.mpr ⟨⟨rest, hx⟩, hxs⟩, ?_, ?_⟩
    · rw [List.map_cons, List.map_cons, hcontent]
      rfl
    · rw [List.filterMap_cons, hslice, List.map_cons, ← htexts]
      simp only [List.append_assoc]

/-! ### Tokens of a layout -/

/-- The texts that the tokens of a source cover. -/
def tokenTexts (source : List Char) : List (List Char) :=
  (tokenize source).filterMap fun t => t.span.slice? source

/-- **The tokens of a layout** of texts are those of the source the texts are from, their places
apart. -/
theorem content_tokenize_of_mem_layouts {source source' : List Char}
    (hf : ∀ t ∈ tokenize source, t.fault? = none) (h : source' ∈ layouts (tokenTexts source)) :
    (tokenize source').map Token.content = (tokenize source).map Token.content := by
  have hstart : Text.byteLength [] = Cursor.start.offset := rfl
  obtain ⟨xs, hxs, hcontent, htexts⟩ := (reads_tokenize source).exists_lexemes hstart
  rw [List.nil_append] at htexts
  rw [tokenTexts, htexts] at h
  have hkind : ∀ x ∈ xs, ∀ message, x.kind ≠ .fault message := by
    intro x hx message he
    obtain ⟨t, ht, htx⟩ := List.mem_map.mp (hcontent ▸ List.mem_map_of_mem hx)
    have hfault := hf t ht
    rw [Token.fault?, show t.kind = .fault message from (congrArg Prod.fst htx).trans he] at hfault
    cases hfault
  obtain ⟨ts, hts, hcontent'⟩ := exists_reads_of_mem_layouts hxs hkind h .start
  rw [tokenize_of_reads hts, hcontent', hcontent]

end SqlChecker
