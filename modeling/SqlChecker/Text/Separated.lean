/-! # Parts of a text between separators

A separator ends one part of a text and begins the next, so there is one part more than there are
separators, and parts may be empty. -/
namespace SqlChecker.Text

/-- The parts of a text between the occurrences of a character. -/
def separate (separator : Char) : List Char → List (List Char)
  | [] => [[]]
  | c :: cs =>
    if c = separator then [] :: separate separator cs
    else (separate separator cs).modifyHead (c :: ·)

theorem length_separate (s : Char) (text : List Char) :
    (separate s text).length = text.count s + 1 := by
  induction text with
  | nil => rfl
  | cons c cs ih => by_cases h : c = s <;> simp [separate, h, ih]

theorem separate_ne_nil (s : Char) (text : List Char) : separate s text ≠ [] := by
  intro h
  have := length_separate s text
  simp [h] at this

/-- A separator ends the parts in front of it and begins those behind it. -/
theorem separate_append_cons (s : Char) (front back : List Char) :
    separate s (front ++ s :: back) = separate s front ++ separate s back := by
  induction front with
  | nil => simp [separate]
  | cons c front ih =>
    obtain ⟨l, ls, hl⟩ := List.exists_cons_of_ne_nil (separate_ne_nil s front)
    by_cases hc : c = s <;> simp [separate, hc, ih, hl]

/-- A text without a separator is one part. -/
theorem separate_eq_singleton {s : Char} {text : List Char} (h : s ∉ text) :
    separate s text = [text] := by
  induction text with
  | nil => rfl
  | cons c text ih =>
    rw [List.mem_cons, not_or] at h
    simp [separate, Ne.symm h.1, ih h.2]

/-- Parts without a separator, each after the first behind one, are the parts of their text. -/
theorem separate_append_flatMap {s : Char} {part : List Char} {parts : List (List Char)}
    (h : s ∉ part) (hs : ∀ p ∈ parts, s ∉ p) :
    separate s (part ++ parts.flatMap (s :: ·)) = part :: parts := by
  induction parts generalizing part with
  | nil => rw [List.flatMap_nil, List.append_nil, separate_eq_singleton h]
  | cons p parts ih =>
    rw [List.flatMap_cons, List.cons_append, separate_append_cons, separate_eq_singleton h,
      ih (hs p List.mem_cons_self) fun q hq => hs q (List.mem_cons_of_mem p hq)]
    rfl

/-- The parts, joined by separators, are the text again. -/
theorem intercalate_separate (s : Char) (text : List Char) :
    [s].intercalate (separate s text) = text := by
  induction text with
  | nil => rfl
  | cons c cs ih =>
    obtain ⟨l, ls, h⟩ := List.exists_cons_of_ne_nil (separate_ne_nil s cs)
    by_cases hc : c = s
    · simp only [separate, hc, if_true]
      rw [h] at ih ⊢
      simpa [List.intercalate, List.intersperse] using ih
    · simp only [separate, hc, if_false, h, List.modifyHead_cons]
      rw [h] at ih
      cases ls <;> simpa [List.intercalate, List.intersperse] using ih

/-- The parts are the first one, and each further one behind a separator. -/
theorem eq_append_flatMap_of_separate {s : Char} {text part : List Char} {parts : List (List Char)}
    (h : separate s text = part :: parts) : text = part ++ parts.flatMap (s :: ·) := by
  have join (ps : List (List Char)) (p : List Char) :
      [s].intercalate (p :: ps) = p ++ ps.flatMap (s :: ·) := by
    induction ps generalizing p with
    | nil => simp [List.intercalate]
    | cons q ps ih =>
      have hnext := ih q
      simp only [List.intercalate] at hnext
      simp [List.intercalate, List.intersperse, hnext]
  rw [← join, ← h, intercalate_separate]

/-- No part holds a separator. -/
theorem notMem_of_mem_separate {s : Char} {text l : List Char} (h : l ∈ separate s text) :
    s ∉ l := by
  induction text generalizing l with
  | nil => simp_all [separate]
  | cons c cs ih =>
    obtain ⟨m, ms, hm⟩ := List.exists_cons_of_ne_nil (separate_ne_nil s cs)
    by_cases hc : c = s
    · simp only [separate, hc, if_true, List.mem_cons] at h
      rcases h with rfl | h
      · simp
      · exact ih h
    · simp only [separate, hc, if_false, hm, List.modifyHead_cons, List.mem_cons] at h
      rcases h with rfl | h
      · have := @ih m (by simp [hm])
        simp [this, Ne.symm hc]
      · exact ih (by simp [hm, h])

end SqlChecker.Text
