import SqlChecker.Proofs.Lexing.Reading

/-! # The case of letters

No class of characters that the lexer asks for tells one letter from another, and no letter is a
character it asks for by itself.  So a text is cut in the same places when its letters are put in
upper case: gaps stay gaps, each lexeme stays a lexeme of its kind and goes as far as before, and a
cursor passes it in the same way.  The tokens of the text in upper case are those of the text, with
their values in upper case (`tokenize_upper`).
-/
namespace SqlChecker

/-! ### Characters -/

theorem isUpper_iff {c : Char} :
    c.isUpper = true ↔ 65 ≤ c.val.toNat ∧ c.val.toNat ≤ 90 := decide_eq_true_iff

theorem isLower_iff {c : Char} :
    c.isLower = true ↔ 97 ≤ c.val.toNat ∧ c.val.toNat ≤ 122 :=
  Bool.and_eq_true_iff.trans (and_congr decide_eq_true_iff decide_eq_true_iff)

theorem isAlpha_iff {c : Char} : c.isAlpha = true ↔ c.isUpper = true ∨ c.isLower = true :=
  Bool.or_eq_true_iff

theorem toUpper_eq_of_not_isLower {c : Char} (h : ¬ c.isLower = true) : c.toUpper = c :=
  dif_neg fun hlower => h (isLower_iff.mpr hlower)

/-- A letter in lower case gets one in upper case. -/
theorem isUpper_toUpper {c : Char} (h : c.isLower = true) : c.toUpper.isUpper = true := by
  rw [isLower_iff] at h
  have hcodes : 'a'.val ≤ c.val ∧ c.val ≤ 'z'.val := h
  have hupper : c.toUpper = ⟨c.val + ('A'.val - 'a'.val), _⟩ := dif_pos hcodes
  have hoffset : ('A'.val - 'a'.val).toNat = 4294967264 := rfl
  rw [isUpper_iff, hupper, UInt32.toNat_add, hoffset]
  omega

/-- What is the same for all letters does not depend on their case. -/
theorem apply_toUpper {α : Type} {f : Char → α} {a : α}
    (h : ∀ c : Char, c.isAlpha = true → f c = a) (c : Char) : f c.toUpper = f c := by
  by_cases hlower : c.isLower = true
  · rw [h _ (isAlpha_iff.mpr (.inl (isUpper_toUpper hlower))), h c (isAlpha_iff.mpr (.inr hlower))]
  · rw [toUpper_eq_of_not_isLower hlower]

theorem isAlpha_toUpper (c : Char) : c.toUpper.isAlpha = c.isAlpha :=
  apply_toUpper (fun _ h => h) c

theorem toUpper_toUpper (c : Char) : c.toUpper.toUpper = c.toUpper := by
  by_cases hlower : c.isLower = true
  · refine toUpper_eq_of_not_isLower fun hlower' => ?_
    have hupper := isUpper_toUpper hlower
    rw [isUpper_iff] at hupper
    rw [isLower_iff] at hlower'
    omega
  · rw [toUpper_eq_of_not_isLower hlower, toUpper_eq_of_not_isLower hlower]

theorem startsWord_of_isAlpha {c : Char} (h : c.isAlpha = true) :
    Lexeme.startsWord c = true :=
  Lexeme.startsWord_iff.mpr (.inl h)

theorem isDigit_of_isAlpha {c : Char} (h : c.isAlpha = true) : c.isDigit = false := by
  rw [← Bool.not_eq_true]
  intro hdigit
  have := Lexeme.startsWord_of_isDigit hdigit
  rw [startsWord_of_isAlpha h] at this
  cases this

theorem isBlank_of_isAlpha {c : Char} (h : c.isAlpha = true) : Text.isBlank c = false := by
  rw [← Bool.not_eq_true]
  intro hblank
  simp only [Text.isBlank, Bool.or_eq_true, beq_iff_eq, or_assoc] at hblank
  rcases hblank with rfl | rfl | rfl | rfl <;> cases h

theorem ofChar?_of_isAlpha {c : Char} (h : c.isAlpha = true) : Operator.ofChar? c = none := by
  cases hop : Operator.ofChar? c with
  | none => rfl
  | some op =>
    have := (Lexeme.startsWord_of_ofChar? hop).1
    rw [startsWord_of_isAlpha h] at this
    cases this

theorem ofPair?_of_isAlpha {c d : Char} (h : c.isAlpha = true ∨ d.isAlpha = true) :
    Operator.ofPair? c d = none := by
  cases hop : Operator.ofPair? c d with
  | none => rfl
  | some op =>
    unfold Operator.ofPair? at hop
    split at hop <;> first | (rcases h with h | h <;> cases h) | cases hop

/-- A character that is no letter is told from any other, in whatever case that is. -/
theorem toUpper_eq_iff {c d : Char} (hd : d.isAlpha = false) : c.toUpper = d ↔ c = d := by
  refine Iff.of_eq (apply_toUpper (f := (· = d)) (a := False) (fun c hc => ?_) c)
  rw [eq_iff_iff, iff_false]
  rintro rfl
  rw [hc] at hd
  cases hd

theorem isAlphanum_toUpper (c : Char) : c.toUpper.isAlphanum = c.isAlphanum := by
  refine apply_toUpper (f := Char.isAlphanum) (a := true) (fun c hc => ?_) c
  rw [Char.isAlphanum, hc, Bool.true_or]

theorem isDigit_toUpper (c : Char) : c.toUpper.isDigit = c.isDigit :=
  apply_toUpper (fun _ => isDigit_of_isAlpha) c

theorem isBlank_toUpper (c : Char) : Text.isBlank c.toUpper = Text.isBlank c :=
  apply_toUpper (fun _ => isBlank_of_isAlpha) c

theorem ofPair?_toUpper (c d : Char) : Operator.ofPair? c d.toUpper = Operator.ofPair? c d :=
  apply_toUpper (fun _ h => ofPair?_of_isAlpha (.inr h)) d

theorem utf8Size_toUpper (c : Char) : c.toUpper.utf8Size = c.utf8Size := by
  refine apply_toUpper (f := Char.utf8Size) (a := 1) (fun c hc => ?_) c
  rw [isAlpha_iff, isUpper_iff, isLower_iff] at hc
  have hlast : (127 : UInt32).toNat = 127 := rfl
  rw [Char.utf8Size_eq_one_iff, UInt32.le_iff_toNat_le]
  omega

/-! ### Texts -/

namespace Text

/-- The text with its letters in upper case. -/
def upper (text : List Char) : List Char := text.map Char.toUpper

theorem upper_append (a b : List Char) : upper (a ++ b) = upper a ++ upper b := List.map_append

theorem upper_upper (text : List Char) : upper (upper text) = upper text := by
  rw [upper, upper, List.map_map]
  exact List.map_congr_left fun c _ => toUpper_toUpper c

/-- A text without letters has no case. -/
theorem upper_of_notAlpha {text : List Char} (h : ∀ c ∈ text, c.isAlpha = false) :
    upper text = text := by
  refine (List.map_congr_left fun c hc => ?_).trans (List.map_id text)
  refine toUpper_eq_of_not_isLower fun hlower => ?_
  have halpha := isAlpha_iff.mpr (.inr hlower)
  rw [h c hc] at halpha
  cases halpha

theorem mem_upper_iff {text : List Char} {d : Char} (hd : d.isAlpha = false) :
    d ∈ upper text ↔ d ∈ text := by
  simp only [upper, List.mem_map, toUpper_eq_iff hd, exists_eq_right]

theorem forall_head?_upper_iff {P : Char → Prop} (hP : ∀ c, P c.toUpper ↔ P c)
    (text : List Char) : (∀ c ∈ (upper text).head?, P c) ↔ ∀ c ∈ text.head?, P c := by
  cases text with
  | nil => rfl
  | cons c text => simp only [upper, List.map_cons, List.head?_cons, Option.mem_some_iff,
      forall_eq', hP]

theorem head?_upper_eq_iff {text : List Char} {d : Char} (hd : d.isAlpha = false) :
    (upper text).head? = some d ↔ text.head? = some d := by
  cases text with
  | nil => rfl
  | cons c text => simp only [upper, List.map_cons, List.head?_cons, Option.some.injEq,
      toUpper_eq_iff hd]

theorem upper_eq_iff {text mark : List Char} (hmark : ∀ c ∈ mark, c.isAlpha = false) :
    upper text = mark ↔ text = mark := by
  constructor
  · rintro rfl
    refine (upper_of_notAlpha fun c hc => ?_).symm
    rw [← isAlpha_toUpper c]
    exact hmark c.toUpper (List.mem_map_of_mem hc)
  · rintro rfl
    exact upper_of_notAlpha hmark

/-- A mark without letters stands in a text in upper case where it stood before. -/
theorem upper_eq_append_iff {text a mark b : List Char} (hmark : ∀ c ∈ mark, c.isAlpha = false) :
    upper text = a ++ (mark ++ b) ↔
      ∃ a' b', text = a' ++ (mark ++ b') ∧ upper a' = a ∧ upper b' = b := by
  constructor
  · intro h
    obtain ⟨a', back, rfl, ha, hback⟩ := List.map_eq_append_iff.mp h
    obtain ⟨mark', b', rfl, hmark', hb⟩ := List.map_eq_append_iff.mp hback
    obtain rfl := (upper_eq_iff hmark).mp hmark'
    exact ⟨a', b', rfl, ha, hb⟩
  · rintro ⟨a', b', rfl, rfl, rfl⟩
    rw [upper_append, upper_append, upper_of_notAlpha hmark]

end Text

/-! ### Trivia -/

namespace Trivia
open Text

/-- The mark that closes a comment has no letters. -/
theorem isAlpha_of_mem_mark : ∀ c ∈ ['*', '/'], Char.isAlpha c = false := by
  intro c hc
  simp only [List.mem_cons, List.not_mem_nil, or_false] at hc
  rcases hc with rfl | rfl <;> rfl

theorem closesAtEnd_upper {text : List Char} (h : ClosesAtEnd text) : ClosesAtEnd (upper text) := by
  obtain ⟨⟨body, rfl⟩, hearly⟩ := h
  refine ⟨⟨upper body, upper_append _ _⟩, fun a b hab => ?_⟩
  obtain ⟨a', b', htext, -, rfl⟩ := (upper_eq_append_iff isAlpha_of_mem_mark).mp hab
  rw [hearly a' b' htext]
  rfl

theorem isPiece_upper {piece : List Char} (h : IsPiece piece) : IsPiece (upper piece) := by
  cases h with
  | @blank c h => exact .blank ((isBlank_toUpper c).trans h)
  | @lineComment body h =>
    rw [upper_append]
    exact .lineComment (mt (mem_upper_iff (by decide)).mp h)
  | blockComment h => exact .blockComment (closesAtEnd_upper h)

theorem upper_mem_gap {text : List Char} (h : text ∈ gap) : upper text ∈ gap := by
  refine gap_induction (P := fun text => upper text ∈ gap) nil_mem_gap ?_ h
  intro piece text hpiece htext
  rw [upper_append]
  exact append_mem_gap (isPiece_upper hpiece) htext

theorem upper_mem_tail {text : List Char} (h : text ∈ tail) : upper text ∈ tail := by
  rw [tail_eq] at h ⊢
  rcases h with h | ⟨front, hfront, comment, ⟨body, hbody, rfl⟩, rfl⟩
  · exact .inl (upper_mem_gap h)
  · refine .inr ⟨upper front, upper_mem_gap hfront, '-' :: '-' :: upper body, ?_, ?_⟩
    · exact ⟨upper body, mt (mem_upper_iff (by decide)).mp hbody, rfl⟩
    · exact (upper_append front ('-' :: '-' :: body)).symm

end Trivia

/-! ### Cursors -/

theorem Cursor.passAll_upper (c : Cursor) (text : List Char) :
    c.passAll (Text.upper text) = c.passAll text := by
  induction text generalizing c with
  | nil => rfl
  | cons char text ih =>
    have hpass : c.pass char.toUpper = c.pass char := by
      simp only [pass, utf8Size_toUpper, toUpper_eq_iff (show '\n'.isAlpha = false by decide)]
    show (c.pass char.toUpper).passAll (Text.upper text) = (c.pass char).passAll text
    rw [hpass, ih]

/-! ### Lexemes -/

namespace Lexeme

/-- The lexeme with its letters in upper case.  A number and the marks have none. -/
def upper : Lexeme → Lexeme
  | word text => word (Text.upper text)
  | quotation quote content => quotation quote (Text.upper content)
  | openQuotation quote content => openQuotation quote (Text.upper content)
  | openComment body => openComment (Text.upper body)
  | x => x

variable {x : Lexeme} {quote : Char} {text rest : List Char}

theorem IsQuote.isAlpha (h : IsQuote quote) : quote.isAlpha = false := by
  rcases h with rfl | rfl <;> rfl

theorem isAlpha_of_isDigit {c : Char} (h : c.isDigit = true) : c.isAlpha = false := by
  rw [← Bool.not_eq_true]
  intro halpha
  rw [isDigit_of_isAlpha halpha] at h
  cases h

theorem IsNumeral.isAlpha (h : IsNumeral text) : ∀ c ∈ text, c.isAlpha = false := by
  obtain ⟨whole, -, hwhole, rfl | ⟨places, hplaces, rfl⟩⟩ := h <;> intro c hc
  · exact isAlpha_of_isDigit (hwhole c hc)
  · rcases List.mem_append.mp hc with hc | hc
    · exact isAlpha_of_isDigit (hwhole c hc)
    · rcases List.mem_cons.mp hc with rfl | hc
      · rfl
      · exact isAlpha_of_isDigit (hplaces c hc)

theorem isAlpha_of_ofSpelling? {op : Operator} (h : Operator.ofSpelling? text = some op) :
    ∀ c ∈ text, c.isAlpha = false := by
  intro c hc
  rw [← Bool.not_eq_true]
  intro halpha
  rcases text with - | ⟨a, - | ⟨b, - | ⟨d, text⟩⟩⟩
  · cases h
  · obtain rfl := List.mem_singleton.mp hc
    replace h : Operator.ofChar? c = some op := h
    rw [ofChar?_of_isAlpha halpha] at h
    cases h
  · replace h : Operator.ofPair? a b = some op := h
    simp only [List.mem_cons, List.not_mem_nil, or_false] at hc
    rw [ofPair?_of_isAlpha (by rcases hc with rfl | rfl <;> simp only [halpha, true_or, or_true])]
      at h
    cases h
  · cases h

theorem IsStray.isAlpha {c : Char} (h : IsStray c) : c.isAlpha = false :=
  Bool.eq_false_iff.mpr fun halpha => h.word (.inl halpha)

theorem doubled_upper (hq : IsQuote quote) (content : List Char) :
    doubled quote (Text.upper content) = Text.upper (doubled quote content) := by
  induction content with
  | nil => rfl
  | cons c content ih =>
    rw [doubled_cons, Text.upper_append, ← ih]
    show (if c.toUpper = quote then _ else _) ++ doubled quote (Text.upper content) = _
    by_cases hc : c = quote
    · rw [if_pos hc, if_pos ((toUpper_eq_iff hq.isAlpha).mpr hc)]
      rfl
    · rw [if_neg hc, if_neg (mt (toUpper_eq_iff hq.isAlpha).mp hc)]
      rfl

theorem text_upper (h : x.Precedes rest) : x.upper.text = Text.upper x.text := by
  cases x with
  | word text => rfl
  | number text => exact (Text.upper_of_notAlpha h.1.isAlpha).symm
  | quotation quote content =>
    have hquote : Text.upper [quote] = [quote] :=
      Text.upper_of_notAlpha (List.forall_mem_singleton.mpr h.1.isAlpha)
    show [quote] ++ (doubled quote (Text.upper content) ++ [quote]) =
      Text.upper ([quote] ++ (doubled quote content ++ [quote]))
    rw [Text.upper_append, Text.upper_append, doubled_upper h.1, hquote]
  | openQuotation quote content =>
    have hquote : Text.upper [quote] = [quote] :=
      Text.upper_of_notAlpha (List.forall_mem_singleton.mpr h.1.isAlpha)
    show [quote] ++ doubled quote (Text.upper content) =
      Text.upper ([quote] ++ doubled quote content)
    rw [Text.upper_append, doubled_upper h.1, hquote]
  | operator op text => exact (Text.upper_of_notAlpha (isAlpha_of_ofSpelling? h.1)).symm
  | punctuation p => cases p <;> rfl
  | stray c =>
    exact (Text.upper_of_notAlpha (List.forall_mem_singleton.mpr (IsStray.isAlpha h))).symm
  | openComment body => rfl

theorem value_upper (h : x.Precedes rest) : x.upper.value = Text.upper x.value := by
  cases x with
  | quotation quote content => rfl
  | openQuotation quote content => rfl
  | openComment body => rfl
  | _ => exact text_upper h

theorem kind_upper (x : Lexeme) : x.upper.kind = x.kind := by
  cases x with
  | word text =>
    have hword : Keyword.ofWord? (Text.upper text) = Keyword.ofWord? text := by
      have hupper := Text.upper_upper text
      unfold Text.upper at hupper ⊢
      rw [Keyword.ofWord?, Keyword.ofWord?, hupper]
    rw [upper, kind, kind, hword]
  | _ => rfl

theorem isWord_upper (x : Lexeme) : x.upper.isWord = x.isWord := by
  cases x <;> rfl

/-- **A lexeme goes as far in upper case.** -/
theorem Precedes.upper (h : x.Precedes rest) : x.upper.Precedes (Text.upper rest) := by
  cases x with
  | word text =>
    obtain ⟨⟨c, cs, rfl, hc, hcs⟩, hrest⟩ := h
    have hunderscore : '_'.isAlpha = false := rfl
    have hcontinues (d : Char) : (d.toUpper.isAlphanum = true ∨ d.toUpper = '_') ↔
        (d.isAlphanum = true ∨ d = '_') := by
      rw [isAlphanum_toUpper, toUpper_eq_iff hunderscore]
    refine ⟨⟨c.toUpper, Text.upper cs, rfl, ?_, List.forall_mem_map.mpr ?_⟩, ?_⟩
    · rwa [isAlpha_toUpper, toUpper_eq_iff hunderscore]
    · exact fun d hd => (hcontinues d).mpr (hcs d hd)
    · exact (Text.forall_head?_upper_iff (fun d => not_congr (hcontinues d)) rest).mpr hrest
  | number text =>
    refine ⟨h.1, (Text.forall_head?_upper_iff (fun d => ?_) rest).mpr h.2⟩
    rw [isDigit_toUpper, ne_eq, toUpper_eq_iff (show '.'.isAlpha = false from rfl)]
  | quotation quote content =>
    refine ⟨h.1, mt (Text.mem_upper_iff rfl).mp h.2.1, ?_⟩
    exact mt (Text.head?_upper_eq_iff h.1.isAlpha).mp h.2.2
  | openQuotation quote content =>
    refine ⟨h.1, mt (Text.mem_upper_iff rfl).mp h.2.1, ?_⟩
    exact (Text.forall_head?_upper_iff (fun d => toUpper_eq_iff rfl) rest).mpr h.2.2
  | operator op text =>
    refine ⟨h.1, fun c hc => (Text.forall_head?_upper_iff (fun d => ?_) rest).mpr (h.2 c hc)⟩
    rw [ofPair?_toUpper, toUpper_eq_iff (show '-'.isAlpha = false from rfl),
      toUpper_eq_iff (show '*'.isAlpha = false from rfl)]
  | punctuation p => trivial
  | stray c => exact h
  | openComment body =>
    obtain ⟨hbody, rfl⟩ := h
    refine ⟨?_, rfl⟩
    rintro ⟨a, b, hab⟩
    rw [List.append_assoc] at hab
    obtain ⟨a', b', rfl, -, -⟩ := (Text.upper_eq_append_iff Trivia.isAlpha_of_mem_mark).mp hab.symm
    exact hbody ⟨a', b', List.append_assoc ..⟩

end Lexeme

/-! ### Tokens -/

/-- The token with its value in upper case. -/
def Token.upper (t : Token) : Token := { t with value := t.value.toUpper }

namespace Cursor

variable {x : Lexeme} {rest : List Char}

theorem passLexeme_upper (c : Cursor) (h : x.Precedes rest) :
    c.passLexeme x.upper = c.passLexeme x := by
  rw [passLexeme, passLexeme, Lexeme.text_upper h, passAll_upper, Lexeme.isWord_upper]

theorem token_upper (c : Cursor) (h : x.Precedes rest) : c.token x.upper = (c.token x).upper := by
  have hvalue : String.ofList x.upper.value = (String.ofList x.value).toUpper := by
    rw [Lexeme.value_upper h, String.toUpper, String.map_eq_internal, String.toList_ofList]
    rfl
  have hstop : (c.passAll x.upper.text).offset = (c.passAll x.text).offset := by
    rw [Lexeme.text_upper h, passAll_upper]
  rw [offset_passAll, offset_passAll] at hstop
  simp only [token, Token.upper, Lexeme.kind_upper, hvalue, hstop]

end Cursor

/-- **A reading of a text**, with the tokens in upper case, is a reading of the text in upper
case. -/
theorem Reads.upper {c : Cursor} {ts : List Token} {text : List Char} (h : Reads c ts text) :
    Reads c (ts.map Token.upper) (Text.upper text) := by
  induction h with
  | done h => exact .done (Trivia.upper_mem_tail h)
  | @token c x ts gap rest hgap hx _ ih =>
    rw [Text.upper_append, Text.upper_append, ← Lexeme.text_upper hx, List.map_cons,
      ← Cursor.token_upper _ hx, ← Cursor.passAll_upper c gap]
    refine .token (Trivia.upper_mem_gap hgap) hx.upper ?_
    rwa [Cursor.passLexeme_upper _ hx, Cursor.passAll_upper]

/-- **The tokens of a text in upper case** are those of the text, with their values in upper
case. -/
theorem tokenize_upper (text : List Char) :
    tokenize (Text.upper text) = (tokenize text).map Token.upper :=
  tokenize_of_reads (reads_tokenize text).upper

end SqlChecker
