import SqlChecker.Text.Byte

/-! # Spans of a text

A span names a stretch of a text by the byte positions at which it starts and stops. -/
namespace SqlChecker

/-- The bytes from `start` up to, but not including, `stop`. -/
structure Span where
  start : Nat
  stop : Nat
  deriving DecidableEq, Repr

namespace Span

/-- The number of bytes covered. -/
def length (s : Span) : Nat := s.stop - s.start

/-- Covers no byte. -/
def isEmpty (s : Span) : Bool := s.start == s.stop

/-- The part of a text that a span covers, if both of its ends lie on boundaries between
characters and in order. -/
def slice? (s : Span) (text : List Char) : Option (List Char) :=
  if s.start ≤ s.stop then do
    let (_, rest) ← Text.splitAtByte? s.start text
    let (covered, _) ← Text.splitAtByte? s.length rest
    return covered
  else
    none

/-- A span covers what stands between a front part that ends at its start and a back part. -/
theorem slice?_eq_some_iff {s : Span} {text covered : List Char} :
    s.slice? text = some covered ↔
      ∃ front back, text = front ++ covered ++ back ∧ Text.byteLength front = s.start ∧
        Text.byteLength (front ++ covered) = s.stop := by
  simp only [slice?, length]
  split
  · simp only [Option.bind_eq_bind, Option.bind_eq_some_iff, Prod.exists,
      Text.splitAtByte?_eq_some_iff, Option.pure_def, Option.some.injEq, Text.byteLength_append]
    constructor
    · rintro ⟨front, rest, ⟨rfl, hf⟩, c, back, ⟨rfl, hc⟩, rfl⟩
      exact ⟨front, back, by simp, hf, by omega⟩
    · rintro ⟨front, back, rfl, hf, hc⟩
      exact ⟨front, covered ++ back, ⟨by simp, hf⟩, covered, back, ⟨rfl, by omega⟩, rfl⟩
  · simp only [reduceCtorEq, Text.byteLength_append, false_iff]
    grind

end Span
end SqlChecker
