import SqlChecker.Lexer
import SqlChecker.Proofs.Lexing.Trivia

/-! # Every byte is accounted for

The tokens of a text, with the trivia around them, lay the text out end to end: each token covers
at least one character, and what stands between two of them is trivia.  A lexer anywhere in a text
lays out what is still to come (`tiles_drain`); the laws on spans follow from the layout alone.
-/
namespace SqlChecker

/-- The stretches in front of tokens: each from the end of the token before, the first from
`start`. -/
def gapsBefore (start : Nat) : List Token → List Span
  | [] => []
  | t :: ts => ⟨start, t.span.start⟩ :: gapsBefore t.span.stop ts

/-- Where the last of some tokens stops, or `start` if there are none. -/
def lastStop (start : Nat) : List Token → Nat
  | [] => start
  | t :: ts => lastStop t.span.stop ts

/-- Tokens account for a text: each covers characters of it, they follow one another without an
overlap, and what they leave uncovered is trivia. -/
structure Accounts (text : List Char) (tokens : List Token) : Prop where
  nonempty : ∀ t ∈ tokens, t.span.start < t.span.stop
  within : ∀ t ∈ tokens, t.span.stop ≤ Text.byteLength text
  sliced : ∀ t ∈ tokens, (t.span.slice? text).isSome
  ordered : tokens.Pairwise fun a b => a.span.start < b.span.start ∧ a.span.stop ≤ b.span.start
  gaps : ∀ g ∈ gapsBefore 0 tokens, ∃ trivia ∈ Trivia.gap, g.slice? text = some trivia
  rest : ∃ trivia ∈ Trivia.tail,
    (Span.mk (lastStop 0 tokens) (Text.byteLength text)).slice? text = some trivia

/-- Tokens lay out a text that begins at a byte position, each behind a gap. -/
inductive Tiles : Nat → List Token → List Char → Prop where
  | done {n : Nat} {text : List Char} (h : text ∈ Trivia.tail) : Tiles n [] text
  | token {n : Nat} {t : Token} {ts : List Token} {gap covered rest : List Char}
      (hgap : gap ∈ Trivia.gap) (hcovered : covered ≠ [])
      (hspan : t.span = ⟨n + Text.byteLength gap, n + Text.byteLength (gap ++ covered)⟩)
      (hrest : Tiles t.span.stop ts rest) : Tiles n (t :: ts) (gap ++ covered ++ rest)

/-! ### The layout of what a lexer has still to read -/

namespace Lexer

variable {l m : Lexer}

/-- A lexer yields no token just if nothing but trivia is to come. -/
theorem next_eq_none_iff : l.next.1 = none ↔ l.rest ∈ Trivia.tail := by
  rw [← Trivia.split_eq_nil_iff, next]
  cases h : (Trivia.split l.rest).2 with
  | nil => simp [Lexeme.scan?, h]
  | cons c rest => simp [Lexeme.scan?, h]

/-- What a step that yields a token passes: a gap and the characters of the token. -/
theorem next_eq_some {t : Token} (h : l.next = (some t, m)) :
    ∃ gap covered, gap ∈ Trivia.gap ∧ covered ≠ [] ∧ l.rest = gap ++ covered ++ m.rest ∧
      t.span = ⟨l.cursor.offset + Text.byteLength gap,
        l.cursor.offset + Text.byteLength (gap ++ covered)⟩ ∧
      m.cursor.offset = t.span.stop := by
  unfold next at h
  cases hs : Lexeme.scan? (Trivia.split l.rest).2 with
  | none => simp [hs] at h
  | some found =>
    obtain ⟨x, rest⟩ := found
    simp only [hs, Prod.mk.injEq, Option.some.injEq] at h
    obtain ⟨rfl, rfl⟩ := h
    have happ := Lexeme.append_of_scan? hs
    have hne : (Trivia.split l.rest).2 ≠ [] := by
      rw [← happ]
      exact List.append_ne_nil_of_left_ne_nil (Lexeme.text_ne_nil_of_scan? hs) rest
    refine ⟨(Trivia.split l.rest).1, x.text, (Trivia.split_mem l.rest).2 hne,
      Lexeme.text_ne_nil_of_scan? hs, ?_, ?_, ?_⟩
    · rw [List.append_assoc, happ, Trivia.append_split]
    · rw [Cursor.token, Cursor.offset_passAll, Text.byteLength_append, Nat.add_assoc]
    · rw [Cursor.token, Cursor.passLexeme]
      split <;> exact Cursor.offset_passAll _ _

theorem tiles_drain (l : Lexer) : Tiles l.cursor.offset l.drain.1 l.rest := by
  fun_induction drain l with
  | case1 l stop h => exact .done (next_eq_none_iff.mp (by rw [h]))
  | case2 l t m h ih =>
    obtain ⟨gap, covered, hgap, hcovered, hrest, hspan, hoffset⟩ := next_eq_some h
    rw [hrest]
    rw [hoffset] at ih
    exact .token hgap hcovered hspan ih

end Lexer

/-! ### Laws of a layout -/

namespace Tiles

variable {n : Nat} {tokens : List Token} {text : List Char}

theorem nonempty (h : Tiles n tokens text) : ∀ t ∈ tokens, t.span.start < t.span.stop := by
  induction h with
  | done => exact fun _ ht => absurd ht List.not_mem_nil
  | token _ hcovered hspan _ ih =>
    refine List.forall_mem_cons.mpr ⟨?_, ih⟩
    have hpos := Nat.pos_of_ne_zero fun h => hcovered (Text.byteLength_eq_zero_iff.mp h)
    simp only [hspan, Text.byteLength_append]
    omega

theorem le_start (h : Tiles n tokens text) : ∀ t ∈ tokens, n ≤ t.span.start := by
  induction h with
  | done => exact fun _ ht => absurd ht List.not_mem_nil
  | token _ _ hspan _ ih =>
    rw [hspan] at ih
    refine List.forall_mem_cons.mpr ⟨?_, fun t ht => ?_⟩
    · rw [hspan]
      exact Nat.le_add_right ..
    · exact Nat.le_trans (Nat.le_add_right ..) (ih t ht)

theorem stop_le (h : Tiles n tokens text) :
    ∀ t ∈ tokens, t.span.stop ≤ n + Text.byteLength text := by
  induction h with
  | done => exact fun _ ht => absurd ht List.not_mem_nil
  | token _ _ hspan _ ih =>
    rw [hspan] at ih
    rw [Text.byteLength_append, ← Nat.add_assoc]
    refine List.forall_mem_cons.mpr ⟨?_, ih⟩
    rw [hspan]
    exact Nat.le_add_right ..

theorem ordered (h : Tiles n tokens text) :
    tokens.Pairwise fun a b => a.span.start < b.span.start ∧ a.span.stop ≤ b.span.start := by
  induction h with
  | done => exact List.Pairwise.nil
  | token hgap hcovered hspan hrest ih =>
    refine List.Pairwise.cons (fun b hb => ?_) ih
    have hlt := (token hgap hcovered hspan hrest).nonempty _ List.mem_cons_self
    have hle := hrest.le_start b hb
    exact ⟨Nat.lt_of_lt_of_le hlt hle, hle⟩

/-! A layout says the same of a longer text, behind a front part that stops where it begins. -/

theorem slice?_append {front : List Char} (hfront : Text.byteLength front = n)
    (covered back : List Char) :
    (Span.mk n (n + Text.byteLength covered)).slice? (front ++ covered ++ back) = some covered :=
  Span.slice?_eq_some_iff.mpr
    ⟨front, back, rfl, hfront, by rw [Text.byteLength_append, hfront]⟩

theorem sliced (h : Tiles n tokens text) (front : List Char)
    (hfront : Text.byteLength front = n) :
    ∀ t ∈ tokens, (t.span.slice? (front ++ text)).isSome := by
  induction h generalizing front with
  | done => exact fun _ ht => absurd ht List.not_mem_nil
  | @token n t ts gap covered rest _ _ hspan _ ih =>
    refine List.forall_mem_cons.mpr ⟨?_, fun u hu => ?_⟩
    · have hstart : Text.byteLength (front ++ gap) = n + Text.byteLength gap := by
        rw [Text.byteLength_append, hfront]
      rw [hspan, Text.byteLength_append, ← Nat.add_assoc, ← List.append_assoc,
        ← List.append_assoc, slice?_append hstart covered rest]
      rfl
    · rw [← List.append_assoc]
      exact ih _ (by rw [hspan, Text.byteLength_append, hfront]) u hu

theorem gaps (h : Tiles n tokens text) (front : List Char) (hfront : Text.byteLength front = n) :
    ∀ g ∈ gapsBefore n tokens, ∃ trivia ∈ Trivia.gap,
      g.slice? (front ++ text) = some trivia := by
  induction h generalizing front with
  | done => exact fun _ hg => absurd hg List.not_mem_nil
  | @token n t ts gap covered rest hgap _ hspan _ ih =>
    refine List.forall_mem_cons.mpr ⟨⟨gap, hgap, ?_⟩, fun g hg => ?_⟩
    · rw [hspan, List.append_assoc, ← List.append_assoc]
      exact slice?_append hfront gap (covered ++ rest)
    · rw [← List.append_assoc]
      exact ih _ (by rw [hspan, Text.byteLength_append, hfront]) g hg

theorem rest (h : Tiles n tokens text) (front : List Char) (hfront : Text.byteLength front = n) :
    ∃ trivia ∈ Trivia.tail,
      (Span.mk (lastStop n tokens) (Text.byteLength (front ++ text))).slice? (front ++ text) =
        some trivia := by
  induction h generalizing front with
  | @done n text htail =>
    refine ⟨text, htail, ?_⟩
    have hslice := slice?_append hfront text []
    rw [lastStop, Text.byteLength_append, hfront]
    rwa [List.append_nil] at hslice
  | token _ _ hspan _ ih =>
    rw [← List.append_assoc]
    exact ih _ (by rw [hspan, Text.byteLength_append, hfront])

end Tiles

/-- The tokens of a text lay it out from its start. -/
theorem tiles_tokenize (text : List Char) : Tiles 0 (tokenize text) text :=
  Lexer.tiles_drain (Lexer.ofText text)

theorem tokenize_eq_nil_iff {text : List Char} : tokenize text = [] ↔ text ∈ Trivia.tail := by
  constructor
  · intro h
    have htiles := tiles_tokenize text
    rw [h] at htiles
    cases htiles with
    | done htail => exact htail
  · intro h
    have hnext : (Lexer.ofText text).next.1 = none := Lexer.next_eq_none_iff.mpr h
    rw [tokenize, Lexer.drain_of_none (Prod.ext hnext rfl)]

/-- **Every byte of a text is accounted for once.**  The tokens cover characters of the text, one
after the other and without an overlap; what is left in front of each of them is blanks and
comments, and so is what is left behind the last, where a line comment may lack its newline.  There
is no token just if the whole text is such trivia. -/
theorem accounts_tokenize (text : List Char) :
    Accounts text (tokenize text) ∧ (tokenize text = [] ↔ text ∈ Trivia.tail) := by
  have h := tiles_tokenize text
  refine ⟨⟨h.nonempty, fun t ht => ?_, h.sliced [] rfl, h.ordered, h.gaps [] rfl, h.rest [] rfl⟩,
    tokenize_eq_nil_iff⟩
  have hle := h.stop_le t ht
  rwa [Nat.zero_add] at hle

end SqlChecker
