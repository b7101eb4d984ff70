/-! # Byte positions in a text

Positions are counted in bytes of the UTF-8 encoding, while the library works on lists of
characters. This module measures a list of characters in bytes and cuts it at a byte position,
which is possible exactly on the boundary between two characters. -/
namespace SqlChecker.Text

/-- The number of bytes a text occupies in UTF-8. -/
def byteLength : List Char → Nat
  | [] => 0
  | c :: cs => c.utf8Size + byteLength cs

@[simp] theorem byteLength_nil : byteLength [] = 0 := rfl

@[simp] theorem byteLength_cons (c : Char) (cs : List Char) :
    byteLength (c :: cs) = c.utf8Size + byteLength cs := rfl

@[simp] theorem byteLength_append (a b : List Char) :
    byteLength (a ++ b) = byteLength a + byteLength b := by
  induction a with
  | nil => simp
  | cons c cs ih => simp [ih, Nat.add_assoc]

theorem byteLength_eq_zero_iff {cs : List Char} : byteLength cs = 0 ↔ cs = [] := by
  cases cs with
  | nil => simp
  | cons c cs => have := c.utf8Size_pos; simp; omega

/-- Cuts a text after its first `n` bytes, if a character ends there. -/
def splitAtByte? : Nat → List Char → Option (List Char × List Char)
  | 0, cs => some ([], cs)
  | _ + 1, [] => none
  | n + 1, c :: cs =>
    if c.utf8Size ≤ n + 1 then
      (splitAtByte? (n + 1 - c.utf8Size) cs).map fun (front, back) => (c :: front, back)
    else
      none

/-- A position is a boundary exactly where a front part of that many bytes ends. -/
theorem splitAtByte?_eq_some_iff {n : Nat} {cs front back : List Char} :
    splitAtByte? n cs = some (front, back) ↔ cs = front ++ back ∧ byteLength front = n := by
  induction cs generalizing n front with
  | nil =>
    cases n with
    | zero => simp only [splitAtByte?, byteLength_eq_zero_iff]; grind
    | succ n => simp only [splitAtByte?]; cases front <;> simp
  | cons c cs ih =>
    have hc := c.utf8Size_pos
    cases n with
    | zero => simp only [splitAtByte?, byteLength_eq_zero_iff]; grind
    | succ n =>
      simp only [splitAtByte?]
      cases front with
      | nil => split <;> simp
      | cons d front =>
        split
        · simp only [Option.map_eq_some_iff, Prod.exists, Prod.mk.injEq, List.cons.injEq,
            List.cons_append, byteLength_cons]
          grind
        · simp only [reduceCtorEq, List.cons_append, List.cons.injEq, byteLength_cons, false_iff]
          grind

/-- A text is cut at a byte position in one way. -/
theorem append_inj_of_byteLength {front back front' back' : List Char}
    (h : front ++ back = front' ++ back') (hlength : byteLength front = byteLength front') :
    front = front' ∧ back = back' := by
  have hcut : splitAtByte? (byteLength front) (front ++ back) = some (front, back) := by
    exact splitAtByte?_eq_some_iff.mpr ⟨rfl, rfl⟩
  have hcut' : splitAtByte? (byteLength front) (front ++ back) = some (front', back') := by
    exact splitAtByte?_eq_some_iff.mpr ⟨h, hlength.symm⟩
  exact Prod.mk.inj (Option.some.inj (hcut.symm.trans hcut'))

end SqlChecker.Text
