/-! # Blanks

The characters that separate the words of a text and are none of them: space, tab, newline and
carriage return. Other characters that print as space are not among them. -/
namespace SqlChecker.Text

/-- A space, a tab, a newline or a carriage return. -/
def isBlank (c : Char) : Bool := c == ' ' || c == '\t' || c == '\n' || c == '\r'

theorem isBlank_iff {c : Char} : isBlank c = true ↔ c ∈ [' ', '\t', '\n', '\r'] := by
  simp [isBlank, or_assoc]

/-- A class without blanks has none of them. -/
theorem eq_false_of_isBlank {p : Char → Bool} (hp : [' ', '\t', '\n', '\r'].any p = false)
    {c : Char} (hc : isBlank c = true) : p c = false :=
  Bool.eq_false_iff.mpr (List.any_eq_false.mp hp c (isBlank_iff.mp hc))

end SqlChecker.Text
