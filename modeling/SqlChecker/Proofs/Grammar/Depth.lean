import SqlChecker.Proofs.Grammar.Definition

/-! # The depth of parentheses

How many more parentheses some terminals open than they close.  A nested word ends at the depth at
which it begins and never falls below it (`Nested.depth_eq`, `Nested.zero_le_depth_take`).  The
depth changes by at most one at a time, and so every depth between the first and the last one is
that of a prefix (`exists_depth_take_eq`).
-/
namespace SqlChecker.Grammar

/-- The parentheses that are opened less those that are closed. -/
def depth (w : List Terminal) : ℤ :=
  w.count (.punctuation .leftParen) - w.count (.punctuation .rightParen)

variable {t : Terminal} {v w : List Terminal}

@[simp] theorem depth_nil : depth [] = 0 := rfl

@[simp] theorem depth_append (v w : List Terminal) : depth (v ++ w) = depth v + depth w := by
  simp only [depth, List.count_append]
  omega

@[simp] theorem depth_open (w : List Terminal) :
    depth (.punctuation .leftParen :: w) = depth w + 1 := by
  rw [depth, List.count_cons_self, List.count_cons_of_ne (by decide), depth]
  omega

@[simp] theorem depth_close (w : List Terminal) :
    depth (.punctuation .rightParen :: w) = depth w - 1 := by
  rw [depth, List.count_cons_of_ne (by decide), List.count_cons_self, depth]
  omega

theorem depth_other (ht : t ∉ [Terminal.punctuation .leftParen, .punctuation .rightParen])
    (w : List Terminal) : depth (t :: w) = depth w := by
  simp only [List.mem_cons, List.not_mem_nil, or_false, not_or] at ht
  rw [depth, List.count_cons_of_ne ht.1, List.count_cons_of_ne ht.2, depth]

/-- A parenthesis changes the depth by one, and all else leaves it. -/
theorem depth_singleton (t : Terminal) :
    t = .punctuation .leftParen ∧ depth [t] = 1 ∨ t = .punctuation .rightParen ∧ depth [t] = -1 ∨
      depth [t] = 0 := by
  by_cases ht : t ∈ [Terminal.punctuation .leftParen, .punctuation .rightParen]
  · simp only [List.mem_cons, List.not_mem_nil, or_false] at ht
    exact ht.elim (fun ho => .inl ⟨ho, ho ▸ rfl⟩) fun hc => .inr (.inl ⟨hc, hc ▸ rfl⟩)
  · exact .inr (.inr (depth_other ht []))

/-- A nested word ends at the depth at which it begins. -/
theorem Nested.depth_eq (h : Nested w) : depth w = 0 := by
  induction h with
  | nil => rfl
  | cons ht _ ih => rw [depth_other ht, ih]
  | group _ _ ihinner ih =>
    rw [List.cons_append, depth_open, depth_append, depth_close, ihinner, ih]
    rfl

/-- A nested word never falls below the depth at which it begins. -/
theorem Nested.zero_le_depth_take (h : Nested w) (n : ℕ) : 0 ≤ depth (w.take n) := by
  induction h generalizing n with
  | nil => simp
  | cons ht _ ih =>
    cases n with
    | zero => simp
    | succ n =>
      rw [List.take_succ_cons, depth_other ht]
      exact ih n
  | @group inner ts _ _ ihinner ih =>
    cases n with
    | zero => simp
    | succ n =>
      rw [List.cons_append, List.take_succ_cons, List.take_append, depth_open, depth_append]
      have front := ihinner n
      -- The prefix ends before the parenthesis that closes the group, or behind it.
      cases n - inner.length with
      | zero =>
        rw [List.take_zero, depth_nil]
        omega
      | succ m =>
        rw [List.take_succ_cons, depth_close]
        have back := ih m
        omega

/-- **Every depth in between is passed.**  The induction is on the terminals; the first of them
leads to the depth from which the rest has as far to go as is left. -/
theorem exists_depth_take_eq {d : ℕ} (h : depth w ≤ -d) : ∃ n, depth (w.take n) = -d := by
  induction w generalizing d with
  | nil => exact ⟨0, by simp at h ⊢; omega⟩
  | cons t w ih =>
    by_cases hd : d = 0
    · exact ⟨0, by simp [hd]⟩
    · have step : depth (t :: w) = depth [t] + depth w := depth_append [t] w
      have hone := depth_singleton t
      obtain ⟨n, hn⟩ := ih (d := (d + depth [t]).toNat) (by omega)
      refine ⟨n + 1, ?_⟩
      rw [List.take_succ_cons, ← List.singleton_append, depth_append, hn]
      omega

end SqlChecker.Grammar
