import Mathlib.Order.Bounds.Basic
import SqlChecker.Lexer
import SqlChecker.Proofs.Grammar.Depth
import SqlChecker.Proofs.Matching.Definitions
import SqlChecker.Proofs.Matching.Prefix
import SqlChecker.Proofs.Verdict

/-! # Groups in parentheses

A group in parentheses is passed over by counting.  The count is the depth behind the first
parenthesis (`Goal.left?_group`), and so the group goes as far as the shortest front in which as
many parentheses are closed as are opened, or to the end if there is none
(`Goal.run_group_isFirst`).  A constraint of a table goes on from group to group, as far as the
first mark outside of them (`Goal.run_tableConstraint_isFirst`).
-/
namespace SqlChecker

/-- The first place with a property, or the end if no place has it. -/
def IsFirst (P : Nat → Prop) (length n : Nat) : Prop :=
  IsLeast {n | P n} n ∨ (∀ n, ¬ P n) ∧ n = length

/-- What is not found in front is found behind it. -/
theorem IsFirst.add {P Q : Nat → Prop} {length m n : Nat} (hfront : ∀ k < m, ¬ Q k)
    (same : ∀ k, P k ↔ Q (m + k)) (h : IsFirst P length n) : IsFirst Q (m + length) (m + n) := by
  have behind {k : Nat} (hk : Q k) : ∃ j, k = m + j ∧ P j := by
    obtain ⟨j, rfl⟩ := Nat.exists_eq_add_of_le (Nat.le_of_not_lt fun hlt => hfront k hlt hk)
    exact ⟨j, rfl, (same j).mpr hk⟩
  rcases h with ⟨hn, hleast⟩ | ⟨hnone, rfl⟩
  · refine .inl ⟨(same n).mp hn, fun k hk => ?_⟩
    obtain ⟨j, rfl, hj⟩ := behind hk
    exact Nat.add_le_add_left (hleast hj) m
  · refine .inr ⟨fun k hk => ?_, rfl⟩
    obtain ⟨j, rfl, hj⟩ := behind hk
    exact hnone j hj

namespace Goal
open Step Grammar

variable {t : Terminal} {ts v w : List Terminal} {n : Nat}

/-! ### Counting -/

/-- **What a terminal does to the count.**  A group that is still open counts the depth, and one is
closed where the depth falls below that at which it begins. -/
theorem stepGroup_some (outer : Nat) (t : Terminal) :
    (∃ outer' : Nat, stepGroup outer (some t) = .take 1 [group outer'] ∧
      (outer' : ℤ) = outer + depth [t]) ∨
    stepGroup outer (some t) = .take 1 [] ∧ (outer + depth [t] : ℤ) = -1 := by
  by_cases ho : t = .punctuation .leftParen
  · subst ho
    exact .inl ⟨outer + 1, rfl, by simp⟩
  · by_cases hc : t = .punctuation .rightParen
    · subst hc
      cases outer with
      | zero => exact .inr ⟨rfl, rfl⟩
      | succ outer => exact .inl ⟨outer, rfl, by rw [depth_close, depth_nil]; omega⟩
    · have ht : t ∉ [Terminal.punctuation .leftParen, .punctuation .rightParen] := by
        simp [ho, hc]
      exact .inl ⟨outer, stepGroup_other outer ht, by rw [depth_other ht]; simp⟩

theorem depth_take_add_one (t : Terminal) (ts : List Terminal) (n : Nat) :
    depth ((t :: ts).take (1 + n)) = depth [t] + depth (ts.take n) := by
  rw [Nat.add_comm, List.take_succ_cons, ← List.singleton_append, depth_append]

/-- **A group with `outer` groups around it** goes on up to the first place at which all of them are
closed. -/
theorem run_group_isFirst (outer : Nat) (ts : List Terminal) :
    ∃ n, IsFirst (fun n => depth (ts.take n) = -(outer + 1)) ts.length n ∧
      run [group outer] ts = .accepted (ts.drop n) := by
  induction ts generalizing outer with
  | nil =>
    refine ⟨0, .inr ⟨fun n hn => ?_, rfl⟩, run_group_nil outer⟩
    simp only [List.take_nil, depth_nil] at hn
    omega
  | cons t ts ih =>
    have notYet : ∀ k < 1, depth ((t :: ts).take k) ≠ -(outer + 1) := by
      intro k hk hdepth
      rw [Nat.lt_one_iff.mp hk, List.take_zero, depth_nil] at hdepth
      omega
    rcases stepGroup_some outer t with ⟨outer', hstep, hcount⟩ | ⟨hstep, hcount⟩
    · obtain ⟨n, hn, hrun⟩ := ih outer'
      have same (k : Nat) : depth (ts.take k) = -(outer' + 1) ↔
          depth ((t :: ts).take (1 + k)) = -(outer + 1) := by
        rw [depth_take_add_one]
        omega
      refine ⟨1 + n, ?_, ?_⟩
      · rw [List.length_cons, Nat.add_comm ts.length]
        exact hn.add notYet same
      · rw [run_cons, stepBefore_cons, step, hstep, Nat.add_comm, List.drop_succ_cons]
        exact hrun
    · refine ⟨1, .inl ⟨?_, fun k hk => Nat.le_of_not_lt fun hlt => notYet k hlt hk⟩, ?_⟩
      · show depth [t] = -(outer + 1)
        omega
      · rw [run_cons, stepBefore_cons, step, hstep]
        exact congrFun run_nil ts

/-- **The count is the depth**, as long as the group is open. -/
theorem left?_group (outer : Nat) (goals : List Goal) (ts : List Terminal)
    (h : ∀ k, depth (ts.take k) ≠ -(outer + 1)) :
    ∃ outer' : Nat, left? (group outer :: goals) ts = some (group outer' :: goals) ∧
      (outer' : ℤ) = outer + depth ts := by
  induction ts generalizing outer with
  | nil => exact ⟨outer, left?_nil _, by simp⟩
  | cons t ts ih =>
    rcases stepGroup_some outer t with ⟨outer', hstep, hcount⟩ | ⟨hstep, hcount⟩
    · have hmove : moveBefore (group outer :: goals) (t :: ts) =
          .take 1 (group outer' :: goals) := by
        rw [moveBefore_cons, stepBefore_cons, step, hstep]
        rfl
      obtain ⟨outer'', hleft, hcount'⟩ := ih outer' fun k hk => h (1 + k) (by
        rw [depth_take_add_one]
        omega)
      have hdepth : depth (t :: ts) = depth [t] + depth ts := depth_append [t] ts
      exact ⟨outer'', (left?_of_take hmove).trans hleft, by omega⟩
    · refine absurd ?_ (h 1)
      show depth [t] = -(outer + 1)
      omega

/-! ### Groups -/

/-- So many terminals are a group, if they begin with a parenthesis: as few as close as many
parentheses as they open, or all if none do. -/
def IsGroupLength (ts : List Terminal) (n : Nat) : Prop :=
  IsFirst (fun n => 0 < n ∧ depth (ts.take n) = 0) ts.length n

/-- What is passed over behind a parenthesis is the rest of a group. -/
theorem run_group_isGroupLength (ts : List Terminal) :
    ∃ n, IsGroupLength (.punctuation .leftParen :: ts) (1 + n) ∧
      run [group 0] ts = .accepted (ts.drop n) := by
  obtain ⟨n, hn, hrun⟩ := run_group_isFirst 0 ts
  refine ⟨n, ?_, hrun⟩
  rw [IsGroupLength, List.length_cons, Nat.add_comm ts.length]
  refine hn.add (fun k hk h => ?_) fun k => ?_
  · exact absurd h.1 (Nat.not_lt.mpr (Nat.lt_succ_iff.mp hk))
  · rw [depth_take_add_one, depth_open, depth_nil]
    omega

/-- Both places in which a group is passed over are come back to behind it. -/
theorem moveBefore_open {g : Goal} (hg : g ∈ [constraints, tableConstraint]) (goals : List Goal)
    (ts : List Terminal) :
    moveBefore (g :: goals) (.punctuation .leftParen :: ts) = .take 1 (group 0 :: g :: goals) := by
  simp only [List.mem_cons, List.not_mem_nil, or_false] at hg
  rcases hg with rfl | rfl <;> rfl

/-- The count behind the first parenthesis is the depth less one, as long as the group is open. -/
theorem left?_open {g : Goal} (hg : g ∈ [constraints, tableConstraint]) (goals : List Goal)
    (hn : 0 < n)
    (h : ∀ k, 0 < k → k ≤ n → depth ((.punctuation .leftParen :: ts).take k) ≠ 0) :
    ∃ outer : Nat, left? (g :: goals) ((.punctuation .leftParen :: ts).take n) =
        some (group outer :: g :: goals) ∧
      depth ((.punctuation .leftParen :: ts).take n) = outer + 1 := by
  obtain ⟨n, rfl⟩ := Nat.exists_eq_add_of_lt hn
  rw [Nat.zero_add, List.take_succ_cons, left?_of_take (moveBefore_open hg goals _), depth_open]
  obtain ⟨outer, hleft, hcount⟩ := left?_group 0 (g :: goals) (ts.take n) (by
    intro k hk
    rw [List.take_take] at hk
    refine h (1 + min k n) (by omega) (by omega) ?_
    rw [depth_take_add_one, depth_open, depth_nil, hk]
    rfl)
  exact ⟨outer, hleft, by omega⟩

/-- A group that is closed ends with the parenthesis that closes it. -/
theorem IsGroupLength.getElem? (h : IsGroupLength (.punctuation .leftParen :: ts) (n + 1))
    (hclosed : depth ((.punctuation .leftParen :: ts).take (n + 1)) = 0) :
    (Terminal.punctuation .leftParen :: ts)[n]? = some (.punctuation .rightParen) := by
  obtain ⟨-, hleast⟩ := h.resolve_right fun hnone => hnone.1 (n + 1) ⟨Nat.succ_pos n, hclosed⟩
  have hopen : ∀ k, 0 < k → k ≤ n → depth ((.punctuation .leftParen :: ts).take k) ≠ 0 :=
    fun k hk hle hdepth => absurd (hleast ⟨hk, hdepth⟩) (Nat.not_le_of_lt (Nat.lt_succ_of_le hle))
  have hpos : 0 < n := by
    refine Nat.pos_of_ne_zero fun hzero => ?_
    subst hzero
    simp at hclosed
  obtain ⟨outer, -, hdepth⟩ := left?_open (g := constraints) (by simp) [] hpos hopen
  rw [List.take_add_one, depth_append, hdepth] at hclosed
  cases hlast : (Terminal.punctuation .leftParen :: ts)[n]? with
  | none =>
    rw [hlast, Option.toList_none, depth_nil] at hclosed
    omega
  | some t =>
    rw [hlast, Option.toList_some] at hclosed
    rcases depth_singleton t with ⟨-, ht⟩ | ⟨rfl, -⟩ | ht
    · omega
    · rfl
    · omega

/-- Every parenthesis that is opened is closed again. -/
def AllClosed (w : List Terminal) : Prop :=
  ∀ after, .punctuation .leftParen :: after <:+ w →
    ∃ n, 0 < n ∧ depth ((.punctuation .leftParen :: after).take n) = 0

theorem allClosed_nil : AllClosed [] := by
  intro after h
  cases List.suffix_nil.mp h

theorem AllClosed.of_suffix (h : AllClosed w) (hv : v <:+ w) : AllClosed v :=
  fun after hafter => h after (hafter.trans hv)

theorem allClosed_cons_iff (ht : t ≠ .punctuation .leftParen) :
    AllClosed (t :: w) ↔ AllClosed w := by
  refine ⟨fun h => h.of_suffix (List.suffix_cons t w), fun h after hafter => ?_⟩
  rcases List.suffix_cons_iff.mp hafter with he | hsuffix
  · exact absurd (List.cons.inj he).1.symm ht
  · exact h after hsuffix

theorem AllClosed.append (hv : AllClosed v) (hw : AllClosed w) : AllClosed (v ++ w) := by
  rintro after ⟨before, he⟩
  rcases List.append_eq_append_iff.mp he with ⟨a, rfl, ha⟩ | ⟨a, rfl, ha⟩
  · cases a with
    | nil => exact hw after ⟨[], ha⟩
    | cons t a =>
      -- The parenthesis is opened in the first part, and so it is closed there.
      rw [List.cons_append] at ha
      obtain ⟨rfl, rfl⟩ := List.cons.inj ha
      obtain ⟨n, hn, hdepth⟩ := hv a (List.suffix_append before _)
      refine ⟨min n (.punctuation .leftParen :: a).length, ?_, ?_⟩
      · rw [List.length_cons]
        omega
      · rwa [← List.cons_append, List.take_append_of_le_length (Nat.min_le_right ..),
          ← List.take_eq_take_min]
  · exact hw after ⟨a, ha.symm⟩

/-- A parenthesis is closed where the depth does not stay above that at which it is opened. -/
theorem exists_closing (h : depth (.punctuation .leftParen :: ts) ≤ 0) :
    ∃ n, 0 < n ∧ depth ((.punctuation .leftParen :: ts).take n) = 0 := by
  rw [depth_open] at h
  obtain ⟨n, hn⟩ := exists_depth_take_eq (w := ts) (d := 1) (by omega)
  refine ⟨1 + n, by omega, ?_⟩
  rw [depth_take_add_one, depth_open, depth_nil, hn]
  rfl

/-- **In a group all that is opened is closed.**  Behind a proper front of a group the depth is
above that at which it begins, and so what is opened there is closed before the group is. -/
theorem allClosed_of_shortest (hhead : w.head? = some (.punctuation .leftParen))
    (hdepth : depth w = 0) (hshort : ∀ k, 0 < k → k < w.length → depth (w.take k) ≠ 0) :
    AllClosed w := by
  rintro after ⟨before, rfl⟩
  refine exists_closing ?_
  by_contra hopen
  rw [depth_append] at hdepth
  cases before with
  | nil =>
    rw [depth_nil] at hdepth
    omega
  | cons t before =>
    obtain rfl : t = .punctuation .leftParen := by simpa using hhead
    obtain ⟨k, hk, hclosed⟩ :
        ∃ k, 0 < k ∧ depth ((.punctuation .leftParen :: before).take k) = 0 :=
      exists_closing (by omega)
    refine hshort (min k (.punctuation .leftParen :: before).length) ?_ ?_ ?_
    · rw [List.length_cons]
      omega
    · simp only [List.length_append, List.length_cons]
      omega
    · rwa [List.take_append_of_le_length (Nat.min_le_right ..), ← List.take_eq_take_min]

theorem allClosed_take_of_isLeast
    (h : IsLeast {n | 0 < n ∧ depth ((.punctuation .leftParen :: ts).take n) = 0} n) :
    AllClosed ((.punctuation .leftParen :: ts).take n) := by
  obtain ⟨⟨hpos, hdepth⟩, hleast⟩ := h
  refine allClosed_of_shortest ?_ hdepth fun k hk hlt hclosed => ?_
  · rw [List.head?_take, if_neg hpos.ne', List.head?_cons]
  · rw [List.length_take, Nat.lt_min] at hlt
    rw [List.take_take, Nat.min_eq_left hlt.1.le] at hclosed
    exact absurd (hleast ⟨hk, hclosed⟩) (Nat.not_le_of_lt hlt.1)

/-! ### Constraints of tables -/

/-- A constraint of a table stops here: at a comma, a closing parenthesis or a semicolon outside of
all groups that are opened in it. -/
def StopsAt (ts : List Terminal) (n : Nat) : Prop :=
  (∃ p ∈ [Punctuation.comma, .rightParen, .semicolon], ts[n]? = some (.punctuation p)) ∧
    AllClosed (ts.take n)

theorem endsDefinition_some_iff : endsDefinition (some t) = true ↔
    ∃ p ∈ [Punctuation.comma, .rightParen, .semicolon], t = .punctuation p := by
  rw [endsDefinition_some]
  simp

theorem stopsAt_zero_iff : StopsAt (t :: ts) 0 ↔ endsDefinition (some t) = true := by
  rw [endsDefinition_some_iff, StopsAt, List.take_zero, and_iff_left allClosed_nil]
  simp

/-- Behind a front in which all is closed a constraint stops at the same places. -/
theorem stopsAt_append_iff (hv : AllClosed v) :
    StopsAt (v ++ ts) (v.length + n) ↔ StopsAt ts n := by
  rw [StopsAt, StopsAt, List.getElem?_append_right (Nat.le_add_right ..), Nat.add_sub_cancel_left,
    List.take_length_add_append]
  exact and_congr_right fun _ =>
    ⟨fun h => h.of_suffix (List.suffix_append v _), fun h => hv.append h⟩

theorem not_stopsAt_nil (n : Nat) : ¬ StopsAt [] n := by
  rintro ⟨⟨p, -, h⟩, -⟩
  cases h

/-- A constraint does not stop in a group. -/
theorem exists_closing_of_stopsAt (h : StopsAt (.punctuation .leftParen :: ts) n) :
    ∃ k, k ≤ n ∧ 0 < k ∧ depth ((.punctuation .leftParen :: ts).take k) = 0 := by
  cases n with
  | zero => cases stopsAt_zero_iff.mp h
  | succ n =>
    obtain ⟨k, hk, hdepth⟩ := h.2 (ts.take n) List.suffix_rfl
    refine ⟨min k (n + 1), Nat.min_le_right .., by omega, ?_⟩
    rwa [← List.take_succ_cons, List.take_take] at hdepth

/-- A group is no longer than what it is the front of. -/
theorem le_length_of_isLeast
    (h : IsLeast {n | 0 < n ∧ depth ((t :: ts).take n) = 0} n) : n ≤ (t :: ts).length := by
  obtain ⟨⟨hpos, hdepth⟩, hleast⟩ := h
  rw [List.take_eq_take_min] at hdepth
  refine (hleast ⟨?_, hdepth⟩).trans (Nat.min_le_right ..)
  rw [List.length_cons]
  omega

/-- Behind a group a constraint stops where it would have begun there. -/
theorem isFirst_stopsAt_of_group {m : Nat}
    (h : IsLeast {n | 0 < n ∧ depth ((.punctuation .leftParen :: ts).take n) = 0} (1 + n))
    (hm : IsFirst (StopsAt (ts.drop n)) (ts.drop n).length m) :
    IsFirst (StopsAt (.punctuation .leftParen :: ts))
      (Terminal.punctuation .leftParen :: ts).length (1 + n + m) := by
  have hle := le_length_of_isLeast h
  have htotal : (Terminal.punctuation .leftParen :: ts).length = 1 + n + (ts.drop n).length := by
    rw [List.length_cons] at hle ⊢
    rw [List.length_drop]
    omega
  rw [htotal]
  refine hm.add (fun k hk hstops => ?_) fun k => ?_
  · obtain ⟨j, hj, hgroup⟩ := exists_closing_of_stopsAt hstops
    have := h.2 hgroup
    omega
  · have same : StopsAt ((.punctuation .leftParen :: ts).take (1 + n) ++ ts.drop n)
        (((.punctuation .leftParen :: ts).take (1 + n)).length + k) ↔ StopsAt (ts.drop n) k :=
      stopsAt_append_iff (allClosed_take_of_isLeast h)
    rw [List.length_take_of_le hle, Nat.add_comm 1 n, List.take_succ_cons, List.cons_append,
      List.take_append_drop, Nat.add_comm n 1] at same
    exact same.symm

theorem run_tableConstraint_open (ts : List Terminal) :
    run [tableConstraint] (.punctuation .leftParen :: ts) = run [group 0, tableConstraint] ts := by
  rw [run_cons]
  rfl

theorem run_tableConstraint_other (ho : t ≠ .punctuation .leftParen)
    (hends : endsDefinition (some t) ≠ true) :
    run [tableConstraint] (t :: ts) = run [tableConstraint] ts := by
  rw [run_cons]
  simp [step, ho, hends]

/-- **A constraint of a table** goes on up to the first place at which it may stop.  The recursion
is that of the constraint: it goes on behind a terminal or behind a whole group. -/
theorem run_tableConstraint_isFirst (ts : List Terminal) :
    ∃ n, IsFirst (StopsAt ts) ts.length n ∧ run [tableConstraint] ts = .accepted (ts.drop n) := by
  cases ts with
  | nil => exact ⟨0, .inr ⟨not_stopsAt_nil, rfl⟩, by simp [run_cons, step, endsDefinition]⟩
  | cons t ts =>
    by_cases hends : endsDefinition (some t) = true
    · refine ⟨0, .inl ⟨stopsAt_zero_iff.mpr hends, fun k _ => Nat.zero_le k⟩, ?_⟩
      simp [run_cons, step, hends]
    · by_cases ho : t = .punctuation .leftParen
      · subst ho
        obtain ⟨n, hgroup, hpassed⟩ := run_group_isGroupLength ts
        obtain ⟨m, hm, hrest⟩ := run_tableConstraint_isFirst (ts.drop n)
        have hrun : run [tableConstraint] (.punctuation .leftParen :: ts) =
            .accepted ((ts.drop n).drop m) := by
          rw [run_tableConstraint_open, run_cons_of_accepted hpassed, hrest]
        rcases hgroup with hleast | ⟨hnone, hlength⟩
        · refine ⟨1 + n + m, isFirst_stopsAt_of_group hleast hm, ?_⟩
          rw [hrun, List.drop_drop, Nat.add_assoc, Nat.add_comm 1, List.drop_succ_cons]
        -- No parenthesis closes the group, which takes all, and a constraint does not stop in it.
        · refine ⟨1 + n, .inr ⟨fun k hstops => ?_, hlength⟩, ?_⟩
          · obtain ⟨j, -, hgroup⟩ := exists_closing_of_stopsAt hstops
            exact hnone j hgroup
          · have hall : ts.length ≤ n := by
              rw [List.length_cons] at hlength
              omega
            rw [hrun, List.drop_of_length_le hall, hlength, List.drop_length, List.drop_nil]
      · obtain ⟨n, hn, hrun⟩ := run_tableConstraint_isFirst ts
        have hclosed : AllClosed [t] := (allClosed_cons_iff ho).mpr allClosed_nil
        refine ⟨1 + n, ?_, ?_⟩
        · rw [List.length_cons, Nat.add_comm ts.length]
          refine hn.add (fun k hk hstops => ?_) fun k => (stopsAt_append_iff hclosed).symm
          rw [Nat.lt_one_iff.mp hk] at hstops
          exact hends (stopsAt_zero_iff.mp hstops)
        · rw [run_tableConstraint_other ho hends, hrun, Nat.add_comm, List.drop_succ_cons]
termination_by ts.length

/-! ### Tokens -/

/-- **Exactly one group is passed over**, from its parenthesis up to the one that closes it, or to
the end if none does; the count in it is the depth and stays above nothing until then.  A constraint
of a table, whatever keyword it follows, goes on up to the first place outside of all groups at
which it may stop. -/
theorem run_passes_groups (tokens : List Token) (i : Nat) :
    (tokens[i]?.map Token.kind = some (.punctuation .leftParen) →
      ∃ n, IsGroupLength (terminalsFrom tokens i) n ∧
        run [group 0] (terminalsFrom tokens (i + 1)) = .accepted (terminalsFrom tokens (i + n)) ∧
        (depth ((terminalsFrom tokens i).take n) = 0 →
          (terminalsFrom tokens i)[n - 1]? = some (.punctuation .rightParen)) ∧
        ∀ g ∈ [constraints, tableConstraint], ∀ goals,
          run (g :: goals) (terminalsFrom tokens i) =
            run (g :: goals) (terminalsFrom tokens (i + n)) ∧
          ∀ m, 0 < m → (∀ k, 0 < k → k ≤ m → depth ((terminalsFrom tokens i).take k) ≠ 0) →
            ∃ outer : Nat, left? (g :: goals) ((terminalsFrom tokens i).take m) =
                some (group outer :: g :: goals) ∧
              depth ((terminalsFrom tokens i).take m) = outer + 1) ∧
    ∀ k, tokens[i]?.map Token.kind = some (.keyword k) →
      ∃ n, IsFirst (StopsAt (terminalsFrom tokens (i + 1)))
          (terminalsFrom tokens (i + 1)).length n ∧
        run [tableConstraint] (terminalsFrom tokens (i + 1)) =
          .accepted (terminalsFrom tokens (i + 1 + n)) ∧
        (k ∈ tableConstraintKeywords →
          run [definition] (terminalsFrom tokens i) =
            .accepted (terminalsFrom tokens (i + 1 + n))) := by
  constructor
  · intro hi
    obtain ⟨t, ht, hkind⟩ := Option.map_eq_some_iff.mp hi
    have hts := terminalsFrom_eq_cons ht
    rw [Token.terminal_eq_punctuation_iff.mpr hkind] at hts
    obtain ⟨n, hn, hrun⟩ := run_group_isGroupLength (terminalsFrom tokens (i + 1))
    rw [drop_terminalsFrom, Nat.add_assoc] at hrun
    refine ⟨1 + n, hts ▸ hn, hrun, fun hclosed => ?_,
      fun g hg goals => ⟨?_, fun m hm hopen => ?_⟩⟩
    · rw [Nat.add_comm 1 n] at hn hclosed
      rw [hts] at hclosed ⊢
      rw [Nat.add_sub_cancel_left]
      exact hn.getElem? hclosed
    · rw [hts, run_of_take (moveBefore_open hg goals _), List.drop_one, List.tail_cons]
      exact run_cons_of_accepted hrun _
    · rw [hts] at hopen ⊢
      exact left?_open hg goals hm hopen
  · intro k hi
    obtain ⟨t, ht, hkind⟩ := Option.map_eq_some_iff.mp hi
    obtain ⟨n, hn, hrun⟩ := run_tableConstraint_isFirst (terminalsFrom tokens (i + 1))
    rw [drop_terminalsFrom] at hrun
    refine ⟨n, hn, hrun, fun hk => ?_⟩
    rw [terminalsFrom_eq_cons ht, Token.terminal_eq_keyword_iff.mpr hkind, run_cons,
      stepBefore_cons, step, if_pos (by simpa [isAnyKeyword] using hk)]
    exact hrun

/-- A constraint with a group in a group, and another group behind the comma after it. -/
theorem run_passes_groups_unique :
    (tokenize "UNIQUE ((a), b) c, (d)".toList)[1]?.map Token.kind =
      some (.punctuation .leftParen) ∧
    (tokenize "UNIQUE ((a), b) c, (d)".toList)[0]?.map Token.kind = some (.keyword .UNIQUE) ∧
    (∃ n, IsGroupLength (terminalsFrom (tokenize "UNIQUE ((a), b) c, (d)".toList) 1) n) ∧
    run [tableConstraint] (terminalsFrom (tokenize "UNIQUE ((a), b) c, (d)".toList) 1) =
      .accepted (terminalsFrom (tokenize "UNIQUE ((a), b) c, (d)".toList) 9) ∧
    ∃ n, IsFirst (StopsAt (terminalsFrom (tokenize "UNIQUE ((a), b) c, (d)".toList) 1))
      (terminalsFrom (tokenize "UNIQUE ((a), b) c, (d)".toList) 1).length n ∧
    run [definition] (terminalsFrom (tokenize "UNIQUE ((a), b) c, (d)".toList) 0) =
      .accepted (terminalsFrom (tokenize "UNIQUE ((a), b) c, (d)".toList) (1 + n)) := by
  have hopen : (tokenize "UNIQUE ((a), b) c, (d)".toList)[1]?.map Token.kind =
      some (.punctuation .leftParen) := by
    decide +kernel
  have hword : (tokenize "UNIQUE ((a), b) c, (d)".toList)[0]?.map Token.kind =
      some (.keyword .UNIQUE) := by
    decide +kernel
  obtain ⟨n, hn, -⟩ := (run_passes_groups _ 1).1 hopen
  obtain ⟨m, hm, -, hrun⟩ := (run_passes_groups _ 0).2 .UNIQUE hword
  exact ⟨hopen, hword, ⟨n, hn⟩, by decide +kernel, m, hm, hrun (by decide)⟩

end Goal
end SqlChecker
