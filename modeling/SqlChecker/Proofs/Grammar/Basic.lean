import Mathlib.Computability.Language
import SqlChecker.Syntax.Terminal

/-! # Languages of terminals

The grammar of statements is written with the operations on languages: `L * M` is `L` followed by
`M`, `L + M` is either of them, `L∗` is any number of repetitions, and `1` is nothing at all.  This
module holds the smallest parts, names and literal values, and the two forms that are not among
those operations: a part that may be missing, and a part that does not begin with certain terminals.
-/
namespace SqlChecker

/-- It is one of these terminals. -/
def Terminal.among (ts : List Terminal) (t : Terminal) : Bool := t ∈ ts

@[simp] theorem Terminal.among_eq_true_iff {ts : List Terminal} {t : Terminal} :
    Terminal.among ts t = true ↔ t ∈ ts := by
  simp [Terminal.among]

@[simp] theorem Terminal.among_eq_false_iff {ts : List Terminal} {t : Terminal} :
    Terminal.among ts t = false ↔ t ∉ ts := by
  simp [Terminal.among]

namespace Grammar
open Terminal Computability

/-- A single terminal of a class. -/
def anyOf (F : Terminal → Bool) : Language Terminal := {w | ∃ t, F t = true ∧ w = [t]}

/-- A part that may be missing. -/
def optional (L : Language Terminal) : Language Terminal := 1 + L

/-- The words of a language that do not begin with a terminal of a class. -/
def avoiding (F : Terminal → Bool) (L : Language Terminal) : Language Terminal :=
  {w | w ∈ L ∧ ∀ t ∈ w.head?, F t = false}

/-! ### Terminals -/

def keyword (k : Keyword) : Language Terminal := anyOf (among [.keyword k])

def mark (p : Punctuation) : Language Terminal := anyOf (among [.punctuation p])

def operator (op : Operator) : Language Terminal := anyOf (among [.operator op])

def number : Language Terminal := anyOf (among [.number])

def string : Language Terminal := anyOf (among [.string])

def star : Language Terminal := operator .star

/-- One or more parts with commas between them. -/
def list (L : Language Terminal) : Language Terminal := L * (mark .comma * L)∗

def parenthesized (L : Language Terminal) : Language Terminal :=
  mark .leftParen * L * mark .rightParen

/-! ### Names and values -/

/-- What may follow a name: `.name` or `.*`. -/
def qualifier : Language Terminal := optional (mark .dot * (anyOf isName + star))

/-- An identifier or a keyword, perhaps qualified. -/
def name : Language Terminal := anyOf isName * qualifier

/-- Another name for a column or a table, or nothing. -/
def otherName : Language Terminal := optional (keyword .AS * name + anyOf isIdentifier)

def sign : Language Terminal := operator .plus + operator .minus

/-- A literal value: a number, which may have a sign, a string, `NULL` or `DEFAULT`. -/
def value : Language Terminal :=
  optional sign * number + string + keyword .NULL + keyword .DEFAULT

/-- A row of values in parentheses. -/
def row : Language Terminal := parenthesized (list value)

/-! ### Membership -/

variable {F : Terminal → Bool} {L M : Language Terminal} {t : Terminal} {w : List Terminal}

theorem mem_anyOf_iff : w ∈ anyOf F ↔ ∃ t, F t = true ∧ w = [t] := Iff.rfl

theorem singleton_mem_anyOf (h : F t = true) : [t] ∈ anyOf F := ⟨t, h, rfl⟩

theorem anyOf_or (F G : Terminal → Bool) : anyOf (fun t => F t || G t) = anyOf F + anyOf G := by
  ext w
  simp only [Language.mem_add, mem_anyOf_iff, Bool.or_eq_true, or_and_right, exists_or]

/-- A choice between several terminals is a choice between each of them. -/
theorem anyOf_among_cons (t u : Terminal) (ts : List Terminal) :
    anyOf (among (t :: u :: ts)) = anyOf (among [t]) + anyOf (among (u :: ts)) := by
  rw [← anyOf_or]
  congr 1
  funext v
  simp [among]

theorem mem_avoiding_iff : w ∈ avoiding F L ↔ w ∈ L ∧ ∀ t ∈ w.head?, F t = false := Iff.rfl

theorem optional_eq (L : Language Terminal) : optional L = 1 + L := rfl

theorem mem_optional_iff : w ∈ optional L ↔ w = [] ∨ w ∈ L := Iff.rfl

theorem optional_mul (L M : Language Terminal) : optional L * M = M + L * M := by
  rw [optional_eq, add_mul, one_mul]

theorem add_optional (L M : Language Terminal) : L + optional M = optional (L + M) :=
  add_left_comm L 1 M

theorem optional_add_optional (L M : Language Terminal) :
    optional L + optional M = optional (L + M) := by
  rw [add_optional, optional_eq L, add_assoc, optional_eq, ← add_assoc, Language.add_self]
  rfl

/-- A repetition is nothing at all, or a part and a further repetition. -/
theorem optional_mul_kstar (L : Language Terminal) : optional (L * L∗) = L∗ :=
  Language.one_add_self_mul_kstar_eq_kstar L

/-- A word that begins with a terminal of a class. -/
theorem mem_anyOf_mul_iff : w ∈ anyOf F * L ↔ ∃ t v, F t = true ∧ v ∈ L ∧ w = t :: v := by
  rw [Language.mem_mul]
  constructor
  · rintro ⟨_, ⟨t, ht, rfl⟩, v, hv, rfl⟩
    exact ⟨t, v, ht, hv, rfl⟩
  · rintro ⟨t, v, ht, hv, rfl⟩
    exact ⟨[t], ⟨t, ht, rfl⟩, v, hv, rfl⟩

theorem cons_mem_anyOf_mul (ht : F t = true) (hw : w ∈ L) : t :: w ∈ anyOf F * L :=
  mem_anyOf_mul_iff.mpr ⟨t, w, ht, hw, rfl⟩

theorem cons_mem_anyOf_mul_iff : t :: w ∈ anyOf F * L ↔ F t = true ∧ w ∈ L := by
  rw [mem_anyOf_mul_iff]
  constructor
  · rintro ⟨u, v, hu, hv, he⟩
    obtain ⟨rfl, rfl⟩ := List.cons.inj he
    exact ⟨hu, hv⟩
  · rintro ⟨ht, hw⟩
    exact ⟨t, w, ht, hw, rfl⟩

@[simp] theorem nil_notMem_anyOf : [] ∉ anyOf F := by
  rintro ⟨t, -, h⟩
  cases h

@[simp] theorem nil_mem_mul_iff : [] ∈ L * M ↔ [] ∈ L ∧ [] ∈ M := by
  simp [Language.mem_mul]

theorem mem_among_singleton_iff : w ∈ anyOf (among [t]) ↔ w = [t] := by
  simp [mem_anyOf_iff]

theorem mem_among_singleton_mul_iff : w ∈ anyOf (among [t]) * L ↔ ∃ v ∈ L, w = t :: v := by
  simp [mem_anyOf_mul_iff]

/-- Whether a word begins with a terminal is decided by its first part, if that is not empty. -/
theorem avoiding_mul (h : [] ∉ L) : avoiding F (L * M) = avoiding F L * M := by
  ext w
  rw [mem_avoiding_iff, Language.mem_mul, Language.mem_mul]
  constructor
  · rintro ⟨⟨a, ha, b, hb, rfl⟩, hw⟩
    refine ⟨a, ⟨ha, ?_⟩, b, hb, rfl⟩
    cases a with
    | nil => exact absurd ha h
    | cons t a => simpa using hw
  · rintro ⟨a, ⟨ha, hw⟩, b, hb, rfl⟩
    refine ⟨⟨a, ha, b, hb, rfl⟩, ?_⟩
    cases a with
    | nil => exact absurd ha h
    | cons t a => simpa using hw

theorem avoiding_add (F : Terminal → Bool) (L M : Language Terminal) :
    avoiding F (L + M) = avoiding F L + avoiding F M := by
  ext w
  simp only [Language.mem_add, mem_avoiding_iff, or_and_right]

theorem avoiding_avoiding (F G : Terminal → Bool) (L : Language Terminal) :
    avoiding F (avoiding G L) = avoiding (fun t => F t || G t) L := by
  ext w
  simp only [mem_avoiding_iff, Bool.or_eq_false_iff, forall_and]
  exact ⟨fun ⟨⟨hw, hG⟩, hF⟩ => ⟨hw, hF, hG⟩, fun ⟨hw, hF, hG⟩ => ⟨⟨hw, hG⟩, hF⟩⟩

/-- What begins with one class of terminals does not begin with another. -/
theorem avoiding_anyOf_mul {G : Terminal → Bool} (h : ∀ t, G t = true → F t = false) :
    avoiding F (anyOf G * L) = anyOf G * L := by
  ext w
  refine and_iff_left_of_imp fun hw t ht => ?_
  obtain ⟨u, v, hu, -, rfl⟩ := mem_anyOf_mul_iff.mp hw
  obtain rfl : u = t := by simpa using ht
  exact h u hu

end Grammar
end SqlChecker
