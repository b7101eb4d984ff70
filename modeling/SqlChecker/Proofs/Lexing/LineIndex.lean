import SqlChecker.Proofs.Places

/-! # Where lines begin

A cursor remembers where each line begins that it has reached.  What it remembers is what the text
behind it says, at every place (`HasPassed.passAll`): the first line begins at the start, and each
further one right behind a newline.  From where a line begins, it goes up to the next newline.
-/
namespace SqlChecker

variable {passed rest : List Char} {c : Cursor} {n offset : Nat}

namespace Text

/-- A line of a text, counted from one, begins at an offset: the first one at the start, and any
other right behind the newline that ends the line in front of it. -/
def LineBegins (text : List Char) (n offset : Nat) : Prop :=
  n = 1 ∧ offset = 0 ∨ ∃ front back, text = front ++ '\n' :: back ∧ n = front.count '\n' + 2 ∧
    offset = byteLength front + 1

/-- A newline begins a line, and no other character does. -/
theorem lineBegins_append_singleton {char : Char} :
    LineBegins (passed ++ [char]) n offset ↔ LineBegins passed n offset ∨
      char = '\n' ∧ n = passed.count '\n' + 2 ∧ offset = byteLength passed + 1 := by
  constructor
  · rintro (hfirst | ⟨front, back, h, hn, hoffset⟩)
    · exact .inl (.inl hfirst)
    -- The newline is the last character, or it stands in front of that one.
    · rcases List.eq_nil_or_concat back with rfl | ⟨back, last, rfl⟩
      · obtain ⟨rfl, hchar⟩ := List.append_inj' h rfl
        exact .inr ⟨List.singleton_inj.mp hchar, hn, hoffset⟩
      · have h' : passed ++ [char] = front ++ '\n' :: back ++ [last] := by simpa using h
        exact .inl (.inr ⟨front, back, (List.append_inj' h' rfl).1, hn, hoffset⟩)
  · rintro ((hfirst | ⟨front, back, rfl, hn, hoffset⟩) | ⟨rfl, hn, hoffset⟩)
    · exact .inl hfirst
    · exact .inr ⟨front, back ++ [char], by simp, hn, hoffset⟩
    · exact .inr ⟨passed, [], rfl, hn, hoffset⟩

/-- The lines that begin in a front part of a text are as many as its newlines say. -/
theorem lineBegins_iff_append (passed rest : List Char) (n offset : Nat) :
    LineBegins passed n offset ↔
      n ≤ passed.count '\n' + 1 ∧ LineBegins (passed ++ rest) n offset := by
  constructor
  · rintro (⟨hn, hoffset⟩ | ⟨front, back, rfl, hn, hoffset⟩)
    · exact ⟨by omega, .inl ⟨hn, hoffset⟩⟩
    · refine ⟨?_, .inr ⟨front, back ++ rest, by simp, hn, hoffset⟩⟩
      rw [List.count_append, List.count_cons_self]
      omega
  · rintro ⟨hle, hfirst | ⟨front, back, h, hn, hoffset⟩⟩
    · exact .inl hfirst
    · rcases List.append_eq_append_iff.mp h with ⟨more, rfl, -⟩ | ⟨inner, rfl, hback⟩
      · rw [List.count_append] at hn
        omega
      · cases inner with
        | nil =>
          rw [List.append_nil] at hle
          omega
        | cons newline inner =>
          obtain ⟨rfl, -⟩ := List.cons.inj hback
          exact .inr ⟨front, inner, rfl, hn, hoffset⟩

/-- A line goes from where it begins up to the next newline. -/
theorem LineBegins.exists_line {text : List Char} (h : LineBegins text n offset) :
    ∃ front back, text = front ++ back ∧ byteLength front = offset ∧
      line text n = back.takeWhile (· != '\n') := by
  rcases h with ⟨rfl, rfl⟩ | ⟨front, back, rfl, rfl, rfl⟩
  · exact ⟨[], text, rfl, rfl, line_append [] text⟩
  · have hline := line_append (front ++ ['\n']) back
    rw [List.count_append, List.count_singleton_self, lineAround,
      List.rtakeWhile_concat_neg _ _ _ (by simp), List.nil_append, List.append_assoc] at hline
    refine ⟨front ++ ['\n'], back, by simp, ?_, hline⟩
    rw [byteLength_append]
    rfl

/-- The lines of a text, by their numbers. -/
theorem map_line_range' (text : List Char) :
    (List.range' 1 (text.count '\n' + 1)).map (line text) = lines text := by
  rw [← length_lines]
  refine List.ext_getElem (by simp) fun i _ hi => ?_
  rw [List.getElem_map, List.getElem_range', Nat.one_mul, Nat.add_comm, line, lineOf,
    List.getElem?_eq_getElem hi, Option.getD_some]

end Text

/-! ### What a cursor remembers -/

/-- A cursor has counted the bytes of the text behind it, and it knows where the lines of that text
begin. -/
structure Cursor.HasPassed (c : Cursor) (passed : List Char) : Prop where
  offset_eq : c.offset = Text.byteLength passed
  size_eq : c.lineStarts.size = passed.count '\n' + 1
  lineStart?_eq_some_iff : ∀ n offset, c.lineStart? n = some offset ↔
    Text.LineBegins passed n offset

namespace Cursor

theorem hasPassed_start : start.HasPassed [] := by
  refine ⟨rfl, rfl, fun n offset => ?_⟩
  constructor
  · intro h
    rcases n with - | - | n
    · cases h
    · exact .inl ⟨rfl, (Option.some.inj h).symm⟩
    · cases h
  · rintro (⟨rfl, rfl⟩ | ⟨front, back, h, -, -⟩)
    · rfl
    · simp at h

theorem lineStart?_succ (c : Cursor) (n : Nat) : c.lineStart? (n + 1) = c.lineStarts[n]? := rfl

namespace HasPassed

/-- **One more character** begins a line if it is a newline, which then is the next line that the
cursor remembers. -/
theorem pass (h : c.HasPassed passed) (char : Char) :
    (c.pass char).HasPassed (passed ++ [char]) := by
  obtain ⟨hoffset, hsize, hstart⟩ := h
  have hbytes : c.offset + char.utf8Size = Text.byteLength (passed ++ [char]) := by
    rw [hoffset, Text.byteLength_append, Text.byteLength_cons, Text.byteLength_nil, Nat.add_zero]
  by_cases hchar : char = '\n'
  · subst hchar
    have hpass : c.pass '\n' =
        ⟨c.offset + 1, c.line + 1, 1, c.lineStarts.push (c.offset + 1)⟩ := rfl
    rw [hpass]
    refine ⟨hbytes, ?_, fun n offset => ?_⟩
    · rw [Array.size_push, hsize, List.count_append, List.count_singleton_self]
    · rw [Text.lineBegins_append_singleton, eq_self_iff_true, true_and, ← hstart, ← hoffset]
      cases n with
      | zero => simp [lineStart?]
      | succ n =>
        rw [lineStart?_succ, lineStart?_succ, Array.getElem?_push]
        split
        · next hn =>
          have hnone : c.lineStarts[n]? = none := Array.getElem?_eq_none (Nat.le_of_eq hn.symm)
          simp only [hnone, Option.some.injEq, reduceCtorEq, false_or]
          omega
        · next hn => exact ⟨.inl, fun h => h.resolve_right fun hnew => hn (by omega)⟩
  · have hpass : c.pass char = { c with offset := c.offset + char.utf8Size } := if_neg hchar
    rw [hpass]
    refine ⟨hbytes, ?_, fun n offset => ?_⟩
    · rw [hsize, List.count_append, List.count_singleton, if_neg (by simpa using hchar)]
    · rw [Text.lineBegins_append_singleton, or_iff_left fun hnew => hchar hnew.1, ← hstart]
      cases n <;> rfl

theorem passAll (h : c.HasPassed passed) (text : List Char) :
    (c.passAll text).HasPassed (passed ++ text) := by
  induction text generalizing c passed with
  | nil => rwa [List.append_nil]
  | cons char text ih =>
    rw [List.append_cons]
    exact ih (h.pass char)

theorem passLexeme (h : c.HasPassed passed) (x : Lexeme) :
    (c.passLexeme x).HasPassed (passed ++ x.text) := by
  have hall := h.passAll x.text
  unfold Cursor.passLexeme
  split
  · exact ⟨hall.offset_eq, hall.size_eq, hall.lineStart?_eq_some_iff⟩
  · exact hall

end HasPassed
end Cursor
end SqlChecker
