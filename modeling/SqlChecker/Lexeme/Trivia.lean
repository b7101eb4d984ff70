import SqlChecker.Text.Blank

/-! # Trivia

What may stand between lexemes without being one: blanks, line comments and block comments. A
line comment ends before its newline. A block comment ends at the first closing mark after its
opening mark, and comments do not nest; one that is never closed is no trivia.

The main statements say that splitting trivia off a text loses nothing and stops only where no
further trivia begins. -/
namespace SqlChecker.Trivia

/-- Cuts a text after the first mark that closes a block comment. -/
def splitComment? : List Char → Option (List Char × List Char)
  | [] => none
  | [_] => none
  | c :: d :: rest =>
    if c = '*' ∧ d = '/' then some (['*', '/'], rest)
    else (splitComment? (d :: rest)).map fun (body, after) => (c :: body, after)

/-- Cuts a text after the blank or the comment at its start. -/
def splitPiece? : List Char → Option (List Char × List Char)
  | [] => none
  | c :: rest =>
    if Text.isBlank c then some ([c], rest)
    else if c = '-' ∧ rest.head? = some '-' then
      some (c :: rest.takeWhile (· != '\n'), rest.dropWhile (· != '\n'))
    else if c = '/' ∧ rest.head? = some '*' then
      (splitComment? rest.tail).map fun (body, after) => ('/' :: '*' :: body, after)
    else
      none

theorem append_of_splitComment? {text body after : List Char}
    (h : splitComment? text = some (body, after)) : body ++ after = text := by
  fun_induction splitComment? text generalizing body with
  | case1 => simp at h
  | case2 => simp at h
  | case3 c d rest hcd =>
    obtain ⟨rfl, rfl⟩ := Prod.mk.inj (Option.some.inj h)
    simp [hcd]
  | case4 c d rest _ ih =>
    obtain ⟨⟨b, a⟩, hb, he⟩ := Option.map_eq_some_iff.mp h
    obtain ⟨rfl, rfl⟩ := Prod.mk.inj he
    simp [ih hb]

/-- A piece begins with the first character, and what it leaves is the rest of the text. -/
theorem append_of_splitPiece? {text piece after : List Char}
    (h : splitPiece? text = some (piece, after)) : piece ≠ [] ∧ piece ++ after = text := by
  unfold splitPiece? at h
  split at h
  · simp at h
  · rename_i c rest
    split at h
    · obtain ⟨rfl, rfl⟩ := Prod.mk.inj (Option.some.inj h)
      simp
    · split at h
      · obtain ⟨rfl, rfl⟩ := Prod.mk.inj (Option.some.inj h)
        simp [List.takeWhile_append_dropWhile]
      · split at h
        · rename_i hc
          obtain ⟨⟨b, a⟩, hb, he⟩ := Option.map_eq_some_iff.mp h
          obtain ⟨rfl, rfl⟩ := Prod.mk.inj he
          have := append_of_splitComment? hb
          cases rest <;> simp_all
        · simp at h

theorem length_of_splitPiece? {text piece after : List Char}
    (h : splitPiece? text = some (piece, after)) : after.length < text.length := by
  obtain ⟨hne, rfl⟩ := append_of_splitPiece? h
  have := List.length_pos_iff.mpr hne
  rw [List.length_append]
  omega

/-- Cuts a text after the trivia at its start, as much of it as there is. -/
def split (text : List Char) : List Char × List Char :=
  match _h : splitPiece? text with
  | none => ([], text)
  | some (piece, after) => (piece ++ (split after).1, (split after).2)
termination_by text.length
decreasing_by all_goals exact length_of_splitPiece? _h

theorem split_of_none {text : List Char} (h : splitPiece? text = none) :
    split text = ([], text) := by
  rw [split]; split <;> simp_all

theorem split_of_some {text piece after : List Char}
    (h : splitPiece? text = some (piece, after)) :
    split text = (piece ++ (split after).1, (split after).2) := by
  rw [split]; split <;> simp_all

/-- Nothing of the text is lost. -/
theorem append_split (text : List Char) : (split text).1 ++ (split text).2 = text := by
  fun_induction split text with
  | case1 => simp
  | case2 text piece after h ih => simpa [ih] using (append_of_splitPiece? h).2

/-- No trivia begins where the cut is. -/
theorem splitPiece?_split (text : List Char) : splitPiece? (split text).2 = none := by
  fun_induction split text with
  | case1 text h => exact h
  | case2 text piece after h ih => exact ih

theorem length_split_le (text : List Char) : (split text).2.length ≤ text.length := by
  have := congrArg List.length (append_split text)
  simp only [List.length_append] at this
  omega

end SqlChecker.Trivia
