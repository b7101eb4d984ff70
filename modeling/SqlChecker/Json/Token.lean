import SqlChecker.Json.Quoted
import SqlChecker.Text.Blank

/-! # JSON tokens

The words of a JSON text. Blanks stand between tokens only. The tokens of a text are read without
regard to the order they may stand in, which is for the reader of values to judge: in particular two
literals that touch each other are two tokens, and no value has two of them side by side. -/
namespace SqlChecker.Json

/-- A word of a JSON text. -/
inductive Token where
  | beginArray
  | endArray
  | beginObject
  | endObject
  | comma
  | colon
  | null
  | bool (b : Bool)
  | number (literal : List Char)
  | string (body : List Char)
  deriving DecidableEq, Repr

/-- The token that a character is by itself. -/
def mark? : Char → Option Token
  | '[' => some .beginArray
  | ']' => some .endArray
  | '\x7b' => some .beginObject
  | '\x7d' => some .endObject
  | ',' => some .comma
  | ':' => some .colon
  | _ => none

/-- Cuts a text after a word that it must begin with. -/
def splitWord? : List Char → List Char → Option (List Char)
  | [], text => some text
  | _ :: _, [] => none
  | w :: word, c :: text => if c = w then splitWord? word text else none

/-- Cuts a text after the digits it begins with, of which there must be one. -/
def splitDigits? (text : List Char) : Option (List Char × List Char) :=
  match text.takeWhile Char.isDigit with
  | [] => none
  | digits => some (digits, text.dropWhile Char.isDigit)

/-- Cuts a text after the whole part of a number. A zero at its start is all of it. -/
def splitWhole? : List Char → Option (List Char × List Char)
  | '0' :: rest => some (['0'], rest)
  | text => splitDigits? text

/-- Cuts a text after the fraction of a number, which may be missing. -/
def splitFraction? : List Char → Option (List Char × List Char)
  | '.' :: rest => (splitDigits? rest).map fun (digits, after) => ('.' :: digits, after)
  | text => some ([], text)

/-- Cuts a text after the sign of an exponent, which may be missing. -/
def splitSign : List Char → List Char × List Char
  | '+' :: rest => (['+'], rest)
  | '-' :: rest => (['-'], rest)
  | text => ([], text)

/-- Cuts a text after the exponent of a number, which may be missing. -/
def splitExponent? : List Char → Option (List Char × List Char)
  | [] => some ([], [])
  | e :: rest =>
    if e = 'e' ∨ e = 'E' then
      (splitDigits? (splitSign rest).2).map fun (digits, after) =>
        (e :: ((splitSign rest).1 ++ digits), after)
    else
      some ([], e :: rest)

/-- Cuts a text after a number without a minus sign. -/
def splitMagnitude? (text : List Char) : Option (List Char × List Char) := do
  let (whole, text) ← splitWhole? text
  let (fraction, text) ← splitFraction? text
  let (exponent, text) ← splitExponent? text
  return (whole ++ fraction ++ exponent, text)

/-- Cuts a text after a number. -/
def splitNumber? : List Char → Option (List Char × List Char)
  | '-' :: rest => (splitMagnitude? rest).map fun (literal, after) => ('-' :: literal, after)
  | text => splitMagnitude? text

/-- Reads on after the first character of a token. -/
def tokenFrom? (first : Char) (text : List Char) : Option (Token × List Char) :=
  match mark? first with
  | some token => some (token, text)
  | none =>
    if first = '"' then (splitBody? text).map fun (body, rest) => (.string body, rest)
    else if first = 'n' then (splitWord? "ull".toList text).map (.null, ·)
    else if first = 't' then (splitWord? "rue".toList text).map (.bool true, ·)
    else if first = 'f' then (splitWord? "alse".toList text).map (.bool false, ·)
    else (splitNumber? (first :: text)).map fun (literal, rest) => (.number literal, rest)

theorem append_of_splitBody? {text body after : List Char}
    (h : splitBody? text = some (body, after)) : body ++ '"' :: after = text := by
  fun_induction splitBody? text generalizing body with
  | case1 => simp at h
  | case2 a b c d rest _ ih | case4 e rest _ _ ih =>
    obtain ⟨⟨_, _⟩, hb, he⟩ := Option.map_eq_some_iff.mp h
    obtain ⟨rfl, rfl⟩ := Prod.mk.inj he
    simp [ih hb]
  | case3 | case5 | case7 => simp at h
  | case6 =>
    obtain ⟨rfl, rfl⟩ := Prod.mk.inj (Option.some.inj h)
    simp
  | case8 c rest _ _ _ _ ih =>
    obtain ⟨⟨_, _⟩, hb, he⟩ := Option.map_eq_some_iff.mp h
    obtain ⟨rfl, rfl⟩ := Prod.mk.inj he
    simp [ih hb]

theorem append_of_splitWord? {word text after : List Char}
    (h : splitWord? word text = some after) : word ++ after = text := by
  fun_induction splitWord? word text with
  | case1 => simpa using h.symm
  | case2 => simp at h
  | case3 w word text ih => simp [ih h]
  | case4 => simp at h

theorem append_of_splitDigits? {text digits after : List Char}
    (h : splitDigits? text = some (digits, after)) : digits ≠ [] ∧ digits ++ after = text := by
  have := List.takeWhile_append_dropWhile (p := Char.isDigit) (l := text)
  unfold splitDigits? at h
  grind

theorem append_of_splitWhole? {text whole after : List Char}
    (h : splitWhole? text = some (whole, after)) : whole ≠ [] ∧ whole ++ after = text := by
  unfold splitWhole? at h
  split at h
  · obtain ⟨rfl, rfl⟩ := Prod.mk.inj (Option.some.inj h)
    simp
  · exact append_of_splitDigits? h

theorem append_of_splitFraction? {text fraction after : List Char}
    (h : splitFraction? text = some (fraction, after)) : fraction ++ after = text := by
  unfold splitFraction? at h
  split at h
  · obtain ⟨⟨_, _⟩, hd, he⟩ := Option.map_eq_some_iff.mp h
    obtain ⟨rfl, rfl⟩ := Prod.mk.inj he
    simp [(append_of_splitDigits? hd).2]
  · obtain ⟨rfl, rfl⟩ := Prod.mk.inj (Option.some.inj h)
    simp

theorem append_splitSign (text : List Char) :
    (splitSign text).1 ++ (splitSign text).2 = text := by
  unfold splitSign
  split <;> rfl

theorem append_of_splitExponent? {text exponent after : List Char}
    (h : splitExponent? text = some (exponent, after)) : exponent ++ after = text := by
  unfold splitExponent? at h
  split at h
  · simp_all
  · rename_i e rest
    split at h
    · obtain ⟨⟨_, _⟩, hd, he⟩ := Option.map_eq_some_iff.mp h
      obtain ⟨rfl, rfl⟩ := Prod.mk.inj he
      simp [(append_of_splitDigits? hd).2, append_splitSign]
    · obtain ⟨rfl, rfl⟩ := Prod.mk.inj (Option.some.inj h)
      simp

theorem append_of_splitMagnitude? {text literal after : List Char}
    (h : splitMagnitude? text = some (literal, after)) :
    literal ≠ [] ∧ literal ++ after = text := by
  simp only [splitMagnitude?, Option.bind_eq_bind, Option.bind_eq_some_iff, Prod.exists,
    Option.pure_def, Option.some.injEq, Prod.mk.injEq] at h
  obtain ⟨w, _, hw, f, _, hf, e, _, he, rfl, rfl⟩ := h
  obtain ⟨hne, rfl⟩ := append_of_splitWhole? hw
  simp [hne, append_of_splitFraction? hf, append_of_splitExponent? he]

theorem append_of_splitNumber? {text literal after : List Char}
    (h : splitNumber? text = some (literal, after)) :
    literal ≠ [] ∧ literal ++ after = text := by
  unfold splitNumber? at h
  split at h
  · obtain ⟨⟨_, _⟩, hm, he⟩ := Option.map_eq_some_iff.mp h
    obtain ⟨rfl, rfl⟩ := Prod.mk.inj he
    simp [(append_of_splitMagnitude? hm).2]
  · exact append_of_splitMagnitude? h

theorem length_of_splitWord? {word text after : List Char}
    (h : splitWord? word text = some after) : after.length ≤ text.length := by
  rw [← append_of_splitWord? h, List.length_append]
  omega

/-- A token takes its first character at least. -/
theorem length_of_tokenFrom? {first : Char} {text rest : List Char} {token : Token}
    (h : tokenFrom? first text = some (token, rest)) : rest.length ≤ text.length := by
  unfold tokenFrom? at h
  split at h
  · simp_all
  · split at h
    · obtain ⟨⟨body, _⟩, hb, he⟩ := Option.map_eq_some_iff.mp h
      obtain ⟨-, rfl⟩ := Prod.mk.inj he
      simp only [← append_of_splitBody? hb, List.length_append, List.length_cons]
      omega
    · split at h
      · obtain ⟨_, hw, he⟩ := Option.map_eq_some_iff.mp h
        exact (Prod.mk.inj he).2 ▸ length_of_splitWord? hw
      · split at h
        · obtain ⟨_, hw, he⟩ := Option.map_eq_some_iff.mp h
          exact (Prod.mk.inj he).2 ▸ length_of_splitWord? hw
        · split at h
          · obtain ⟨_, hw, he⟩ := Option.map_eq_some_iff.mp h
            exact (Prod.mk.inj he).2 ▸ length_of_splitWord? hw
          · obtain ⟨⟨literal, _⟩, hn, he⟩ := Option.map_eq_some_iff.mp h
            obtain ⟨-, rfl⟩ := Prod.mk.inj he
            obtain ⟨hne, happ⟩ := append_of_splitNumber? hn
            have := congrArg List.length happ
            have := List.length_pos_iff.mpr hne
            simp only [List.length_append, List.length_cons] at *
            omega

/-- The tokens of a text, if it is made of tokens and blanks. -/
def tokens? : List Char → Option (List Token)
  | [] => some []
  | c :: text =>
    if Text.isBlank c then tokens? text
    else match _h : tokenFrom? c text with
      | none => none
      | some (token, rest) => (tokens? rest).map (token :: ·)
termination_by text => text.length
decreasing_by
  · simp
  · exact Nat.lt_succ_of_le (length_of_tokenFrom? _h)

end SqlChecker.Json
