/-! # Quoted text in JSON

Between the quotes of a JSON string, a backslash begins an escape, and a quote or a character below
the space can only be written as one. An escape of four hexadecimal digits stands for a unit of
UTF-16; two of them may make up one character, and half of such a pair is no text.

This module writes a text with as few escapes as possible, finds where a string ends, and reads the
text that a string stands for. The first is undone by the last. -/
namespace SqlChecker.Json

/-- The hexadecimal digit with a value below sixteen, in lower case. -/
def hexDigit (n : Nat) : Char := Nat.digitChar n

/-- The value of a hexadecimal digit, of either case. -/
def hexValue? (c : Char) : Option Nat :=
  if c.isDigit then some (c.toNat - '0'.toNat)
  else if 'a' ≤ c ∧ c ≤ 'f' then some (c.toNat - 'a'.toNat + 10)
  else if 'A' ≤ c ∧ c ≤ 'F' then some (c.toNat - 'A'.toNat + 10)
  else none

/-- The value of four hexadecimal digits. -/
def hexUnit? (a b c d : Char) : Option Nat := do
  return ((← hexValue? a) * 16 + (← hexValue? b)) * 256 + (← hexValue? c) * 16 + (← hexValue? d)

/-- What a backslash and this letter stand for. -/
def shortEscape? : Char → Option Char
  | '"' => some '"'
  | '\\' => some '\\'
  | '/' => some '/'
  | 'b' => some '\x08'
  | 'f' => some '\x0c'
  | 'n' => some '\n'
  | 'r' => some '\r'
  | 't' => some '\t'
  | _ => none

/-- The letter that stands for a character after a backslash, for those that are written so. -/
def shortForm? : Char → Option Char
  | '"' => some '"'
  | '\\' => some '\\'
  | '\x08' => some 'b'
  | '\x0c' => some 'f'
  | '\n' => some 'n'
  | '\r' => some 'r'
  | '\t' => some 't'
  | _ => none

/-- A character as it is written in a string: as itself, unless it must be escaped. -/
def escapeChar (c : Char) : List Char :=
  match shortForm? c with
  | some e => ['\\', e]
  | none =>
    if c < ' ' then ['\\', 'u', '0', '0', hexDigit (c.toNat / 16), hexDigit (c.toNat % 16)] else [c]

/-- A text as it is written between quotes. -/
def escape (text : List Char) : List Char := text.flatMap escapeChar

/-- Cuts a string, read on after its opening quote, at its closing quote. -/
def splitBody? : List Char → Option (List Char × List Char)
  | [] => none
  | '\\' :: 'u' :: a :: b :: c :: d :: rest =>
    if (hexUnit? a b c d).isSome then
      (splitBody? rest).map fun (body, after) => ('\\' :: 'u' :: a :: b :: c :: d :: body, after)
    else none
  | '\\' :: e :: rest =>
    if (shortEscape? e).isSome then
      (splitBody? rest).map fun (body, after) => ('\\' :: e :: body, after)
    else none
  | c :: rest =>
    if c = '"' then some ([], rest)
    else if c < ' ' ∨ c = '\\' then none
    else (splitBody? rest).map fun (body, after) => (c :: body, after)

/-- What is written at one place of a string: a character, or a unit of UTF-16. -/
inductive Piece where
  | char (c : Char)
  | unit (n : Nat)
  deriving DecidableEq, Repr

/-- The pieces of what stands between the quotes of a string. -/
def pieces? : List Char → Option (List Piece)
  | [] => some []
  | '\\' :: 'u' :: a :: b :: c :: d :: rest => do
    return .unit (← hexUnit? a b c d) :: (← pieces? rest)
  | '\\' :: e :: rest => do
    return .char (← shortEscape? e) :: (← pieces? rest)
  | c :: rest => if c = '\\' then none else (pieces? rest).map (.char c :: ·)

/-- The first unit of a pair. -/
def isHighUnit (n : Nat) : Bool := 0xD800 ≤ n && n < 0xDC00

/-- The second unit of a pair. -/
def isLowUnit (n : Nat) : Bool := 0xDC00 ≤ n && n < 0xE000

/-- The character that a pair of units makes up. -/
def ofPair (high low : Nat) : Char :=
  Char.ofNat (0x10000 + (high - 0xD800) * 0x400 + (low - 0xDC00))

/-- The text of some pieces, if every half of a pair has the other half beside it. -/
def join? : List Piece → Option (List Char)
  | [] => some []
  | .char c :: rest => (join? rest).map (c :: ·)
  | .unit n :: rest =>
    if isHighUnit n then match rest with
      | .unit low :: rest => if isLowUnit low then (join? rest).map (ofPair n low :: ·) else none
      | _ => none
    else if isLowUnit n then none
    else (join? rest).map (Char.ofNat n :: ·)

/-- The text that stands between quotes in this way. -/
def unescape? (body : List Char) : Option (List Char) := (pieces? body).bind join?

theorem hexValue?_hexDigit {n : Nat} (h : n < 16) : hexValue? (hexDigit n) = some n := by
  revert n
  decide

theorem hexUnit?_of_lt_space {c : Char} (h : c < ' ') :
    hexUnit? '0' '0' (hexDigit (c.toNat / 16)) (hexDigit (c.toNat % 16)) = some c.toNat := by
  have hc : c.toNat < 32 := h
  have h0 : hexValue? '0' = some 0 := by decide
  simp only [hexUnit?, h0, hexValue?_hexDigit (show c.toNat / 16 < 16 by omega),
    hexValue?_hexDigit (show c.toNat % 16 < 16 by omega), Option.bind_eq_bind, Option.bind_some,
    Option.pure_def, Option.some.injEq]
  omega

theorem shortEscape?_of_shortForm? {c e : Char} (h : shortForm? c = some e) :
    shortEscape? e = some c ∧ e ≠ 'u' := by
  unfold shortForm? at h
  split at h <;> simp_all <;> subst h <;> decide

/-- The piece that a character is written as. -/
def pieceOf (c : Char) : Piece :=
  if shortForm? c = none ∧ c < ' ' then .unit c.toNat else .char c

theorem pieces?_escapeChar_append (c : Char) (rest : List Char) :
    pieces? (escapeChar c ++ rest) = (pieces? rest).map (pieceOf c :: ·) := by
  unfold pieceOf escapeChar
  cases hs : shortForm? c with
  | some e =>
    obtain ⟨he, hu⟩ := shortEscape?_of_shortForm? hs
    simp only [List.cons_append, List.nil_append]
    rw [pieces?]
    · cases pieces? rest <;> simp [he]
    · simp [hu]
  | none =>
    by_cases hc : c < ' '
    · simp only [hc, if_true, List.cons_append, List.nil_append, pieces?,
        hexUnit?_of_lt_space hc]
      cases pieces? rest <;> simp
    · have hb : c ≠ '\\' := by rintro rfl; simp [shortForm?] at hs
      simp only [hc, if_false, List.cons_append, List.nil_append]
      rw [pieces?]
      · simp [hb]
      · simp [hb]
      · simp [hb]

theorem pieces?_escape (text : List Char) : pieces? (escape text) = some (text.map pieceOf) := by
  induction text with
  | nil => rfl
  | cons c text ih =>
    simp only [escape, List.flatMap_cons] at ih ⊢
    simp [pieces?_escapeChar_append, ih]

theorem join?_map_pieceOf (text : List Char) : join? (text.map pieceOf) = some text := by
  induction text with
  | nil => rfl
  | cons c text ih =>
    rw [List.map_cons, pieceOf]
    split
    · rename_i h
      have hc : c.toNat < 32 := h.2
      have hhigh : isHighUnit c.toNat = false := by simp [isHighUnit]; omega
      have hlow : isLowUnit c.toNat = false := by simp [isLowUnit]; omega
      rw [join?.eq_def]
      simp [hhigh, hlow, ih]
    · rw [join?]
      simp [ih]

/-- A text is read as it was written. -/
theorem unescape?_escape (text : List Char) : unescape? (escape text) = some text := by
  simp [unescape?, pieces?_escape, join?_map_pieceOf]

end SqlChecker.Json
