import Mathlib.Data.List.Forall2
import SqlChecker.Json.Basic
import SqlChecker.Json.Token
import SqlChecker.Proofs.Lexing.Lexemes

/-! # JSON texts and their tokens

A text written without blanks is split into the tokens that it was put together from.  It takes care
only where a number ends: what follows must not go on with the number.  Each mark of punctuation
ends one, and so does the end of the text.
-/
namespace SqlChecker.Json

/-- A character that would go on with a number. -/
def continuesNumber (c : Char) : Bool := c.isDigit || c == '.' || c == 'e' || c == 'E'

/-- A text in front of which a number ends. -/
def EndsNumber (text : List Char) : Prop := ∀ c ∈ text.head?, continuesNumber c = false

/-- A text is split into tokens, whatever follows in front of which a number ends. -/
def Splits (text : List Char) (tokens : List Token) : Prop :=
  ∀ rest, EndsNumber rest → tokens? (text ++ rest) = (tokens? rest).map (tokens ++ ·)

variable {c : Char} {a b text rest : List Char} {ts us : List Token} {t : Token}

/-! ### Single tokens -/

theorem tokens?_nil : tokens? [] = some [] := by rw [tokens?]

theorem tokens?_cons_of_blank (hc : Text.isBlank c = true) (text : List Char) :
    tokens? (c :: text) = tokens? text := by
  rw [tokens?, if_pos hc]

theorem tokens?_cons_of_token (hc : Text.isBlank c = false)
    (h : tokenFrom? c text = some (t, rest)) :
    tokens? (c :: text) = (tokens? rest).map (t :: ·) := by
  rw [tokens?, if_neg (by simp [hc])]
  split <;> simp_all

theorem isBlank_eq_false_of_mark? (h : mark? c = some t) : Text.isBlank c = false := by
  unfold mark? at h
  split at h <;> first | rfl | cases h

/-- A mark of punctuation ends a number. -/
theorem endsNumber_cons_of_mark? (h : mark? c = some t) (text : List Char) :
    EndsNumber (c :: text) := by
  intro d hd
  obtain rfl : c = d := Option.some.inj hd
  unfold mark? at h
  split at h <;> first | rfl | cases h

theorem endsNumber_append (ha : EndsNumber a) (hb : EndsNumber b) : EndsNumber (a ++ b) := by
  cases a with
  | nil => exact hb
  | cons c a => exact ha

namespace Splits

theorem nil : Splits [] [] := fun rest _ => by simp

theorem append (ha : Splits a ts) (hb : Splits b us) (hends : EndsNumber b) :
    Splits (a ++ b) (ts ++ us) := by
  intro rest hrest
  rw [List.append_assoc, ha _ (endsNumber_append hends hrest), hb _ hrest, Option.map_map]
  simp [Function.comp_def]

/-- A token is split off a text by its first character. -/
theorem of_tokenFrom? (hc : Text.isBlank c = false)
    (h : ∀ rest, EndsNumber rest → tokenFrom? c (text ++ rest) = some (t, rest)) :
    Splits (c :: text) [t] := by
  intro rest hrest
  rw [List.cons_append, tokens?_cons_of_token hc (h rest hrest)]
  rfl

/-- A mark of punctuation is a token by itself. -/
theorem cons_mark (h : mark? c = some t) (hb : Splits b us) : Splits (c :: b) (t :: us) := by
  intro rest hrest
  have htoken : tokenFrom? c (b ++ rest) = some (t, b ++ rest) := by rw [tokenFrom?, h]
  rw [List.cons_append, tokens?_cons_of_token (isBlank_eq_false_of_mark? h) htoken, hb _ hrest,
    Option.map_map]
  rfl

end Splits

/-! ### Strings -/

theorem splitBody?_escapeChar_append (c : Char) (rest : List Char) :
    splitBody? (escapeChar c ++ rest) =
      (splitBody? rest).map fun (body, after) => (escapeChar c ++ body, after) := by
  unfold escapeChar
  cases hs : shortForm? c with
  | some e =>
    obtain ⟨he, hu⟩ := shortEscape?_of_shortForm? hs
    simp only [List.cons_append, List.nil_append]
    rw [splitBody?]
    · simp [he]
    · simp [hu]
  | none =>
    by_cases hc : c < ' '
    · simp only [hc, if_true, List.cons_append, List.nil_append, splitBody?,
        hexUnit?_of_lt_space hc, Option.isSome_some]
    · have hb : c ≠ '\\' := by rintro rfl; simp [shortForm?] at hs
      have hq : c ≠ '"' := by rintro rfl; simp [shortForm?] at hs
      simp only [hc, if_false, List.cons_append, List.nil_append]
      rw [splitBody?]
      · simp [hb, hq, hc]
      · simp [hb]
      · simp [hb]

/-- A string ends at the quote behind what was escaped. -/
theorem splitBody?_escape_append (text rest : List Char) :
    splitBody? (escape text ++ '"' :: rest) = some (escape text, rest) := by
  induction text with
  | nil => simp [escape, splitBody?]
  | cons c text ih =>
    simp only [escape, List.flatMap_cons, List.append_assoc] at ih ⊢
    rw [splitBody?_escapeChar_append, ih]
    rfl

theorem Splits.string (text : List Char) :
    Splits ('"' :: (escape text ++ ['"'])) [.string (escape text)] := by
  refine of_tokenFrom? rfl fun rest _ => ?_
  rw [List.append_assoc, List.singleton_append]
  simp [tokenFrom?, mark?, splitBody?_escape_append]

/-! ### Numbers -/

theorem EndsNumber.not_isDigit (h : EndsNumber rest) : ∀ c ∈ rest.head?, c.isDigit = false := by
  intro c hc
  have hcontinues := h c hc
  simp only [continuesNumber, Bool.or_eq_false_iff] at hcontinues
  exact hcontinues.1.1.1

/-- All digits of a numeral are taken, also those behind a zero, since a numeral that begins with a
zero is no longer than that. -/
theorem splitWhole?_decimal_append (n : Nat) (hrest : EndsNumber rest) :
    splitWhole? (Text.decimal n ++ rest) = some (Text.decimal n, rest) := by
  unfold splitWhole?
  split
  · next after hzero =>
    have hhead : (Text.decimal n).head? = some '0' := by
      obtain ⟨c, cs, hcons⟩ := List.exists_cons_of_ne_nil (Text.decimal_ne_nil n)
      rw [hcons] at hzero ⊢
      rw [(List.cons.inj hzero).1]
      rfl
    obtain rfl := Text.head?_decimal_eq_zero_iff.mp hhead
    obtain rfl : rest = after := (List.cons.inj hzero).2
    rfl
  · obtain ⟨htake, hdrop⟩ := Lexeme.span_append
      (fun c hc => Text.isDigit_of_mem_decimal (n := n) hc) hrest.not_isDigit
    unfold splitDigits?
    rw [htake, hdrop]
    split
    · next hnil => exact absurd hnil (Text.decimal_ne_nil n)
    · rfl

theorem splitFraction?_eq_nil (hrest : EndsNumber rest) :
    splitFraction? rest = some ([], rest) := by
  unfold splitFraction?
  split
  · exact absurd (hrest '.' rfl) (by decide)
  · rfl

theorem splitExponent?_eq_nil (hrest : EndsNumber rest) :
    splitExponent? rest = some ([], rest) := by
  cases rest with
  | nil => rfl
  | cons c rest =>
    have hc := hrest c rfl
    rw [splitExponent?, if_neg]
    rintro (rfl | rfl) <;> cases hc

theorem splitNumber?_decimal_append (n : Nat) (hrest : EndsNumber rest) :
    splitNumber? (Text.decimal n ++ rest) = some (Text.decimal n, rest) := by
  have hmagnitude : splitMagnitude? (Text.decimal n ++ rest) = some (Text.decimal n, rest) := by
    rw [splitMagnitude?, splitWhole?_decimal_append n hrest]
    simp [splitFraction?_eq_nil hrest, splitExponent?_eq_nil hrest]
  unfold splitNumber?
  split
  -- A numeral has no sign in front.
  · next after hminus =>
    obtain ⟨c, cs, hcons⟩ := List.exists_cons_of_ne_nil (Text.decimal_ne_nil n)
    have hdigit : c.isDigit = true := Text.isDigit_of_mem_decimal (n := n) (by simp [hcons])
    rw [hcons] at hminus
    rw [(List.cons.inj hminus).1] at hdigit
    cases hdigit
  · exact hmagnitude

/-- No other token begins with a digit. -/
theorem tokenFrom?_of_isDigit (hc : c.isDigit = true) (text : List Char) :
    tokenFrom? c text =
      (splitNumber? (c :: text)).map fun (literal, rest) => (.number literal, rest) := by
  have hne : ∀ d ∈ ['"', 'n', 't', 'f'], c ≠ d := by
    rintro d hd rfl
    simp only [List.mem_cons, List.not_mem_nil, or_false] at hd
    rcases hd with rfl | rfl | rfl | rfl <;> cases hc
  have hmark : mark? c = none := by
    unfold mark?
    split <;> first | cases hc | rfl
  rw [tokenFrom?, hmark]
  simp only [List.mem_cons, List.not_mem_nil, or_false, forall_eq_or_imp, forall_eq] at hne
  simp [hne]

theorem Splits.decimal (n : Nat) : Splits (Text.decimal n) [.number (Text.decimal n)] := by
  obtain ⟨c, cs, hcons⟩ := List.exists_cons_of_ne_nil (Text.decimal_ne_nil n)
  have hdigit : c.isDigit = true := Text.isDigit_of_mem_decimal (n := n) (by simp [hcons])
  have hblank : Text.isBlank c = false := by
    rw [← Bool.not_eq_true]
    intro hblank
    rw [Text.eq_false_of_isBlank (p := Char.isDigit) (by decide) hblank] at hdigit
    cases hdigit
  rw [hcons]
  refine of_tokenFrom? hblank fun rest hrest => ?_
  rw [tokenFrom?_of_isDigit hdigit, ← List.cons_append, ← hcons,
    splitNumber?_decimal_append n hrest]
  rfl

/-! ### Words -/

theorem splitWord?_append (word text : List Char) : splitWord? word (word ++ text) = some text := by
  induction word with
  | nil => rfl
  | cons w word ih => simp [splitWord?, ih]

theorem Splits.bool (b : Bool) : Splits (Json.bool b).render [.bool b] := by
  cases b with
  | true =>
    show Splits ('t' :: "rue".toList) _
    refine of_tokenFrom? rfl fun rest _ => ?_
    have hword := splitWord?_append "rue".toList rest
    simp only [tokenFrom?, mark?, hword]
    rfl
  | false =>
    show Splits ('f' :: "alse".toList) _
    refine of_tokenFrom? rfl fun rest _ => ?_
    have hword := splitWord?_append "alse".toList rest
    simp only [tokenFrom?, mark?, hword]
    rfl

/-! ### Sequences -/

theorem commaSeparated_cons (text : List Char) (texts : List (List Char)) :
    commaSeparated (text :: texts) = text ++ texts.flatMap (',' :: ·) := by
  induction texts generalizing text with
  | nil => simp [commaSeparated]
  | cons next texts ih =>
    have hnext := ih next
    rw [commaSeparated] at hnext ⊢
    rw [List.intercalate_cons_cons, hnext]
    simp

theorem endsNumber_further {close : Char} (hclose : mark? close = some t)
    (texts : List (List Char)) : EndsNumber (texts.flatMap (',' :: ·) ++ [close]) := by
  cases texts with
  | nil => exact endsNumber_cons_of_mark? hclose []
  | cons text texts => exact endsNumber_cons_of_mark? (c := ',') rfl _

/-- Further texts of a sequence, each behind a comma, and the mark that ends the sequence. -/
theorem Splits.further {close : Char} (hclose : mark? close = some t) {texts : List (List Char)}
    {tokens : List (List Token)} (h : List.Forall₂ Splits texts tokens) :
    Splits (texts.flatMap (',' :: ·) ++ [close]) (tokens.flatMap (.comma :: ·) ++ [t]) := by
  induction h with
  | nil => exact cons_mark hclose nil
  | @cons text ts texts tokens htext htexts ih =>
    rw [List.flatMap_cons, List.flatMap_cons, List.append_assoc, List.append_assoc]
    exact cons_mark rfl (htext.append ih (endsNumber_further hclose texts))

/-- The tokens of a sequence. -/
def commaTokens : List (List Token) → List Token
  | [] => []
  | ts :: tokens => ts ++ tokens.flatMap (.comma :: ·)

/-- **A sequence** of texts with commas between them, and the mark that ends it. -/
theorem Splits.commaSeparated {close : Char} (hclose : mark? close = some t)
    {texts : List (List Char)} {tokens : List (List Token)} (h : List.Forall₂ Splits texts tokens) :
    Splits (commaSeparated texts ++ [close]) (commaTokens tokens ++ [t]) := by
  cases h with
  | nil => exact cons_mark hclose nil
  | @cons text ts texts tokens htext htexts =>
    rw [commaSeparated_cons, commaTokens, List.append_assoc, List.append_assoc]
    exact htext.append (further hclose htexts) (endsNumber_further hclose texts)

end SqlChecker.Json
