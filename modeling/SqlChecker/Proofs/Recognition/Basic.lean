import SqlChecker.Proofs.Grammar.Basic
import SqlChecker.Proofs.Matching.Sequence

/-! # Recognition

A matcher recognizes a language if what it takes is always a word of the language, and if it takes
every word of the language that is followed by a terminal with which the word cannot go on.

Nothing but the next terminal decides what a matcher does, so two matchers one after the other
recognize the product of their languages as soon as no terminal both goes on with the first part
and begins the second.  For that the judgement carries a `Profile`, a bound on the terminals with
which words begin and go on, and the condition is computed from two profiles.

The judgement is bounded by a length.  Whoever takes a terminal first needs what follows only for
shorter lists, and so the rules of expressions, which contain each other, are used by induction on
the bound.
-/
namespace SqlChecker

namespace Terminal

/-- Every terminal. -/
def all : List Terminal :=
  Keyword.all.map .keyword ++ [PlainWord.no, .action, .other].map .identifier ++
    [.number, .string, .fault] ++
    [Operator.equal, .notEqual, .less, .lessEqual, .greater, .greaterEqual, .plus, .minus, .star,
      .slash, .percent, .bang].map .operator ++
    [Punctuation.leftParen, .rightParen, .comma, .semicolon, .dot].map .punctuation

theorem mem_all (t : Terminal) : t ∈ all := by
  cases t with
  | keyword k => simp [all, Keyword.mem_all]
  | identifier w => cases w <;> simp [all]
  | operator op => cases op <;> simp [all]
  | punctuation p => cases p <;> simp [all]
  | _ => simp [all]

/-- Whether two classes of terminals have none in common. -/
def disjoint (F G : Terminal → Bool) : Bool := all.all fun t => !(F t && G t)

theorem eq_false_of_disjoint {F G : Terminal → Bool} (h : disjoint F G = true) {t : Terminal}
    (ht : G t = true) : F t = false := by
  have := List.all_eq_true.mp h t (mem_all t)
  simpa [ht] using this

end Terminal

/-- How the words of a language may begin and go on. -/
structure Profile where
  /-- Begins a word. -/
  first : Terminal → Bool
  /-- Goes on with a word that might also have ended. -/
  extend : Terminal → Bool
  /-- Nothing at all may be a word. -/
  empty : Bool

namespace Profile

/-- What follows cannot go on with a word. -/
def Stops (p : Profile) (rest : List Terminal) : Prop := ∀ t ∈ rest.head?, p.extend t = false

/-- The profile of a product. -/
def append (p q : Profile) : Profile where
  first t := p.first t || (p.empty && q.first t)
  extend t := q.extend t || (q.empty && p.extend t)
  empty := p.empty && q.empty

/-- The profile of a choice, which the first terminal decides. -/
def or (p q : Profile) : Profile where
  first t := p.first t || q.first t
  extend t := p.extend t || q.extend t || (q.empty && p.first t)
  empty := p.empty || q.empty

/-- A profile is bounded by another. -/
structure Within (p q : Profile) : Prop where
  first (t : Terminal) : p.first t = true → q.first t = true
  extend (t : Terminal) : p.extend t = true → q.extend t = true
  empty : p.empty = true → q.empty = true

/-- Whether a profile is bounded by another. -/
def fits (p q : Profile) : Bool :=
  (Terminal.all.all fun t => (!p.first t || q.first t) && (!p.extend t || q.extend t)) &&
    (!p.empty || q.empty)

theorem within_of_fits {p q : Profile} (h : p.fits q = true) : p.Within q := by
  rw [fits, Bool.and_eq_true, List.all_eq_true] at h
  obtain ⟨ht, he⟩ := h
  refine ⟨fun t hf => ?_, fun t hf => ?_, fun hp => ?_⟩
  · have := ht t (Terminal.mem_all t)
    simp_all
  · have := ht t (Terminal.mem_all t)
    simp_all
  · simp_all

theorem Stops.mono {p q : Profile} (h : ∀ t, p.extend t = true → q.extend t = true)
    {rest : List Terminal} (hs : q.Stops rest) : p.Stops rest := by
  intro t ht
  by_contra hp
  have hq := hs t ht
  rw [h t (by simpa using hp)] at hq
  exact absurd hq (by decide)

end Profile

/-- Takes just the words of a language, which begin with terminals of a class. -/
structure Takes (front : List Terminal → Option (List Terminal)) (K : Language Terminal)
    (F : Terminal → Bool) : Prop where
  sound {ts rest : List Terminal} : front ts = some rest → ∃ w ∈ K, ts = w ++ rest
  complete {w rest : List Terminal} : w ∈ K → front (w ++ rest) = some rest
  first {w : List Terminal} : w ∈ K → ∃ t v, F t = true ∧ w = t :: v

theorem takes_takeOne (F : Terminal → Bool) : Takes (Matcher.takeOne F) (Grammar.anyOf F) F where
  sound {ts rest} h := by
    cases ts with
    | nil => simp [Matcher.takeOne] at h
    | cons t ts =>
      rw [Matcher.takeOne, Option.ite_none_right_eq_some] at h
      obtain ⟨ht, he⟩ := h
      obtain rfl := Option.some.inj he
      exact ⟨[t], Grammar.singleton_mem_anyOf ht, rfl⟩
  complete {w rest} h := by
    obtain ⟨t, ht, rfl⟩ := h
    simp [Matcher.takeOne, ht]
  first {w} h := by
    obtain ⟨t, ht, rfl⟩ := h
    exact ⟨t, [], ht, rfl⟩

/-- On lists shorter than `n`, the matcher recognizes the language, and the language fits the
profile.  Only what may be left over according to `E` is considered. -/
structure RecognizesBefore (E : List Terminal → Prop) (n : Nat) (m : Matcher)
    (L : Language Terminal) (p : Profile) : Prop where
  sound {ts rest : List Terminal} : ts.length < n → E rest → m ts = .accepted rest →
    ∃ w ∈ L, ts = w ++ rest
  complete {w rest : List Terminal} : w ∈ L → w.length < n → E rest → p.Stops rest →
    m (w ++ rest) = .accepted rest
  first {t : Terminal} {w : List Terminal} : t :: w ∈ L → (t :: w).length < n → p.first t = true
  empty : 0 < n → [] ∈ L → p.empty = true

/-- The matcher recognizes the language, whatever is left over. -/
abbrev Recognizes : Nat → Matcher → Language Terminal → Profile → Prop :=
  RecognizesBefore fun _ => True

namespace RecognizesBefore
open Matcher Grammar Terminal Computability

variable {E E' : List Terminal → Prop} {n : Nat} {m m' : Matcher} {L M : Language Terminal}
variable {p q : Profile} {F : Terminal → Bool}

theorem zero (m : Matcher) (L : Language Terminal) (p : Profile) : RecognizesBefore E 0 m L p where
  sound h := absurd h (Nat.not_lt_zero _)
  complete _ h := absurd h (Nat.not_lt_zero _)
  first _ h := absurd h (Nat.not_lt_zero _)
  empty h := absurd h (Nat.not_lt_zero _)

theorem mono {k : Nat} (h : RecognizesBefore E n m L p) (hk : k ≤ n) :
    RecognizesBefore E k m L p where
  sound hl := h.sound (Nat.lt_of_lt_of_le hl hk)
  complete hw hl := h.complete hw (Nat.lt_of_lt_of_le hl hk)
  first hw hl := h.first hw (Nat.lt_of_lt_of_le hl hk)
  empty hl := h.empty (Nat.lt_of_lt_of_le hl hk)

theorem within (h : RecognizesBefore E n m L p) (hq : p.Within q) : RecognizesBefore E n m L q where
  sound := h.sound
  complete hw hl hE hs := h.complete hw hl hE (hs.mono hq.extend)
  first hw hl := hq.first _ (h.first hw hl)
  empty hl hw := hq.empty (h.empty hl hw)

theorem fits (h : RecognizesBefore E n m L p) (hq : p.fits q = true) :
    RecognizesBefore E n m L q :=
  h.within (Profile.within_of_fits hq)

/-- Only words within the bound matter. -/
theorem congr (h : RecognizesBefore E n m L p)
    (hL : ∀ w : List Terminal, w.length < n → (w ∈ L ↔ w ∈ M)) : RecognizesBefore E n m M p where
  sound {ts rest} hl hE hr := by
    obtain ⟨w, hw, rfl⟩ := h.sound hl hE hr
    rw [List.length_append] at hl
    exact ⟨w, (hL w (by omega)).mp hw, rfl⟩
  complete hw hl hE hs := h.complete ((hL _ hl).mpr hw) hl hE hs
  first hw hl := h.first ((hL _ hl).mpr hw) hl
  empty hl hw := h.empty hl ((hL [] hl).mpr hw)

theorem pred (h : RecognizesBefore E (n + 1) m L p) : RecognizesBefore E n m L p :=
  h.mono (Nat.le_succ n)

/-- What is recognized before anything is recognized before something. -/
theorem before (h : Recognizes n m L p) : RecognizesBefore E n m L p where
  sound hl _ hr := h.sound hl trivial hr
  complete hw hl _ hs := h.complete hw hl trivial hs
  first := h.first
  empty := h.empty

/-- Nothing at all. -/
theorem done : Recognizes n .accepted 1 ⟨among [], among [], true⟩ where
  sound _ _ h := ⟨[], rfl, by simpa using h⟩
  complete hw _ _ _ := by
    rw [(Language.mem_one _).mp hw]
    rfl
  first hw := by simp at hw
  empty _ _ := rfl

/-- One matcher after the other recognizes the product, if the second part leaves over for the
first what that needs. -/
theorem andThen_before (hm : ∀ ts mid, m ts = .accepted mid → mid.length ≤ ts.length)
    (h : RecognizesBefore E' n m L p) (h' : RecognizesBefore E n m' M q)
    (hE : ∀ b ∈ M, ∀ rest, E rest → E' (b ++ rest))
    (hs : Terminal.disjoint p.extend q.first = true) :
    RecognizesBefore E n (Matcher.andThen m m') (L * M) (p.append q) where
  sound {ts rest} hl hrest hr := by
    obtain ⟨mid, hmid, hr⟩ := andThen_eq_accepted_iff.mp hr
    obtain ⟨b, hb, rfl⟩ := h'.sound (Nat.lt_of_le_of_lt (hm _ _ hmid) hl) hrest hr
    obtain ⟨a, ha, rfl⟩ := h.sound hl (hE b hb rest hrest) hmid
    exact ⟨a ++ b, Language.append_mem_mul ha hb, (List.append_assoc a b rest).symm⟩
  complete {w rest} hw hl hrest hstop := by
    obtain ⟨a, ha, b, hb, rfl⟩ := Language.mem_mul.mp hw
    rw [List.length_append] at hl
    -- The first part is followed by the second, or by what follows both.
    have stops : p.Stops (b ++ rest) := by
      intro t ht
      cases b with
      | nil =>
        have := hstop t (by simpa using ht)
        simp only [Profile.append, h'.empty (by omega) hb, Bool.true_and, Bool.or_eq_false_iff]
          at this
        exact this.2
      | cons u b =>
        obtain rfl : u = t := by simpa using ht
        exact Terminal.eq_false_of_disjoint hs (h'.first hb (by omega))
    have stops' : q.Stops rest := hstop.mono fun t ht => by simp [Profile.append, ht]
    rw [List.append_assoc, Matcher.andThen, h.complete ha (by omega) (hE b hb rest hrest) stops]
    exact h'.complete hb (by omega) hrest stops'
  first {t w} hw hl := by
    obtain ⟨a, ha, b, hb, hab⟩ := Language.mem_mul.mp hw
    cases a with
    | nil =>
      obtain rfl : b = t :: w := by simpa using hab
      simp [Profile.append, h.empty (by omega) ha, h'.first hb hl]
    | cons u a =>
      rw [List.cons_append, List.cons.injEq] at hab
      obtain ⟨rfl, rfl⟩ := hab
      have : (u :: a).length < n := by
        simp only [List.length_cons, List.length_append] at hl ⊢
        omega
      simp [Profile.append, h.first ha this]
  empty hl hw := by
    obtain ⟨a, ha, b, hb, hab⟩ := Language.mem_mul.mp hw
    obtain ⟨rfl, rfl⟩ := List.append_eq_nil_iff.mp hab
    simp [Profile.append, h.empty hl ha, h'.empty hl hb]

/-- **A terminal that must come next**, and what follows it. -/
theorem lead (F : Terminal → Bool) (missing : SyntaxError) (h : RecognizesBefore E n m L p) :
    RecognizesBefore E (n + 1) (Matcher.lead F missing m) (anyOf F * L) ⟨F, p.extend, false⟩ where
  sound {ts rest} hl hE hr := by
    cases ts with
    | nil => simp [Matcher.lead] at hr
    | cons t ts =>
      rw [Matcher.lead] at hr
      split at hr
      · next ht =>
        obtain ⟨w, hw, rfl⟩ := h.sound (by simpa using hl) hE hr
        exact ⟨t :: w, cons_mem_anyOf_mul ht hw, rfl⟩
      · simp at hr
  complete {w rest} hw hl hE hrest := by
    obtain ⟨t, v, ht, hv, rfl⟩ := mem_anyOf_mul_iff.mp hw
    rw [List.cons_append, Matcher.lead, if_pos ht]
    exact h.complete hv (by simpa using hl) hE hrest
  first {t w} hw _ := by
    obtain ⟨u, v, hu, -, he⟩ := mem_anyOf_mul_iff.mp hw
    obtain ⟨rfl, rfl⟩ := List.cons.inj he
    exact hu
  empty _ hw := by
    obtain ⟨u, v, -, -, he⟩ := mem_anyOf_mul_iff.mp hw
    simp at he

/-- **A choice that the next terminal decides.**  The second matcher never sees a word of its
language that begins as the first one does. -/
theorem choose_avoiding (h : RecognizesBefore E n m L p) (h' : RecognizesBefore E n m' M q)
    (he : p.empty = true → [] ∈ M) :
    RecognizesBefore E n (Matcher.choose p.first m m') (L + avoiding p.first M) (p.or q) where
  sound {ts rest} hl hE hr := by
    rw [Matcher.choose] at hr
    split at hr
    · obtain ⟨w, hw, rfl⟩ := h.sound hl hE hr
      exact ⟨w, Or.inl hw, rfl⟩
    · next hF =>
      obtain ⟨w, hw, rfl⟩ := h'.sound hl hE hr
      refine ⟨w, Or.inr ⟨hw, ?_⟩, rfl⟩
      intro t ht
      cases w with
      | nil => simp at ht
      | cons u w => simp_all
  complete {w rest} hw hl hE hrest := by
    have stops : p.Stops rest := hrest.mono fun t ht => by simp [Profile.or, ht]
    have stops' : q.Stops rest := hrest.mono fun t ht => by simp [Profile.or, ht]
    -- Where the first matcher is not chosen, the second one takes its words.
    have other (hw : w ∈ M) (hF : ¬ (w ++ rest).head?.any p.first = true) :
        Matcher.choose p.first m m' (w ++ rest) = .accepted rest := by
      rw [Matcher.choose, if_neg hF]
      exact h'.complete hw hl hE stops'
    cases w with
    | nil =>
      have hM : [] ∈ M := hw.elim (fun hL => he (h.empty hl hL)) And.left
      refine other hM fun hF => ?_
      obtain ⟨t, ht, hp⟩ := (Option.any_eq_true _ _).mp hF
      have := hrest t ht
      simp [Profile.or, h'.empty hl hM, hp] at this
    | cons t w =>
      rcases hw with hw | ⟨hw, hF⟩
      · rw [Matcher.choose, if_pos (by simp [h.first hw hl])]
        exact h.complete hw hl hE stops
      · have := hF t rfl
        exact other hw (by simp [this])
  first {t w} hw hl := by
    rcases hw with hw | ⟨hw, -⟩
    · simp [Profile.or, h.first hw hl]
    · simp [Profile.or, h'.first hw hl]
  empty hl hw := by
    rcases hw with hw | ⟨hw, -⟩
    · simp [Profile.or, h.empty hl hw]
    · simp [Profile.or, h'.empty hl hw]

/-- A choice between parts that begin differently. -/
theorem choose (h : RecognizesBefore E n m L p) (h' : RecognizesBefore E n m' M q)
    (he : p.empty = true → [] ∈ M) (hs : Terminal.disjoint p.first q.first = true) :
    RecognizesBefore E n (Matcher.choose p.first m m') (L + M) (p.or q) := by
  refine (choose_avoiding h h' he).congr fun w hw => ?_
  rw [Language.mem_add, Language.mem_add, mem_avoiding_iff]
  refine or_congr_right (and_iff_left_of_imp fun hM t ht => ?_)
  cases w with
  | nil => simp at ht
  | cons u w =>
    obtain rfl : u = t := by simpa using ht
    exact Terminal.eq_false_of_disjoint hs (h'.first hM hw)

/-- **Something that may be missing**, and what follows it. -/
theorem attempt {front : List Terminal → Option (List Terminal)} {K : Language Terminal}
    (hK : Takes front K F) (h : RecognizesBefore E n m L p) :
    RecognizesBefore E (n + 1) (Matcher.attempt front m) (optional (K * L))
      ⟨F, fun t => F t || p.extend t, true⟩ where
  sound {ts rest} hl hE hr := by
    rw [Matcher.attempt] at hr
    split at hr
    · next mid hf =>
      obtain ⟨k, hk, rfl⟩ := hK.sound hf
      obtain ⟨t, v, -, rfl⟩ := hK.first hk
      have hmid : mid.length < n := by
        simp only [List.length_append, List.length_cons] at hl
        omega
      obtain ⟨w, hw, rfl⟩ := h.sound hmid hE hr
      exact ⟨t :: v ++ w, Or.inr (Language.append_mem_mul hk hw), (List.append_assoc ..).symm⟩
    · obtain rfl : ts = rest := by simpa using hr
      exact ⟨[], Or.inl rfl, rfl⟩
  complete {w rest} hw hl hE hrest := by
    rw [Matcher.attempt]
    rcases mem_optional_iff.mp hw with rfl | hw
    -- A word of `K` would begin with a terminal that goes on with nothing at all.
    · have hnone : front rest = none := by
        rw [Option.eq_none_iff_forall_not_mem]
        intro mid hf
        obtain ⟨k, hk, rfl⟩ := hK.sound hf
        obtain ⟨t, v, ht, rfl⟩ := hK.first hk
        have := hrest t rfl
        simp [ht] at this
      rw [List.nil_append, hnone]
    · obtain ⟨k, hk, v, hv, rfl⟩ := Language.mem_mul.mp hw
      obtain ⟨t, k, -, rfl⟩ := hK.first hk
      rw [List.append_assoc, hK.complete hk]
      refine h.complete hv ?_ hE (hrest.mono fun t ht => by simp [ht])
      simp only [List.length_append, List.length_cons] at hl
      omega
  first {t w} hw hl := by
    rcases mem_optional_iff.mp hw with hw | hw
    · simp at hw
    · obtain ⟨k, hk, v, -, he⟩ := Language.mem_mul.mp hw
      obtain ⟨u, k, hu, rfl⟩ := hK.first hk
      obtain ⟨rfl, -⟩ := List.cons.inj he
      exact hu
  empty _ _ := rfl

theorem maybe (F : Terminal → Bool) (h : RecognizesBefore E n m L p) :
    RecognizesBefore E (n + 1) (Matcher.maybe F m) (optional (anyOf F * L))
      ⟨F, fun t => F t || p.extend t, true⟩ :=
  attempt (takes_takeOne F) h

/-! ### Lists of goals -/

/-- **Goals one after the other** recognize the product, if the second part leaves over for the
first what that needs. -/
theorem append_before {as bs : List Goal} (h : RecognizesBefore E' n (Goal.run as) L p)
    (h' : RecognizesBefore E n (Goal.run bs) M q)
    (hE : ∀ b ∈ M, ∀ rest, E rest → E' (b ++ rest))
    (hs : Terminal.disjoint p.extend q.first = true) :
    RecognizesBefore E n (Goal.run (as ++ bs)) (L * M) (p.append q) := by
  rw [Goal.run_append]
  exact andThen_before (fun _ _ => Goal.length_le_of_run) h h' hE hs

theorem append {as bs : List Goal} (h : Recognizes n (Goal.run as) L p)
    (h' : RecognizesBefore E n (Goal.run bs) M q)
    (hs : Terminal.disjoint p.extend q.first = true) :
    RecognizesBefore E n (Goal.run (as ++ bs)) (L * M) (p.append q) :=
  append_before h h' (fun _ _ _ _ => trivial) hs

theorem cons {g : Goal} {goals : List Goal} (h : Recognizes n (Goal.run [g]) L p)
    (h' : RecognizesBefore E n (Goal.run goals) M q)
    (hs : Terminal.disjoint p.extend q.first = true) :
    RecognizesBefore E n (Goal.run (g :: goals)) (L * M) (p.append q) :=
  append h h' hs

theorem lead_cons {missing : SyntaxError} {g : Goal} {body goals : List Goal}
    (hg : Goal.run [g] = Matcher.lead F missing (Goal.run body))
    (h : RecognizesBefore E n (Goal.run (body ++ goals)) L p) :
    RecognizesBefore E (n + 1) (Goal.run (g :: goals)) (anyOf F * L) ⟨F, p.extend, false⟩ := by
  rw [Goal.run_cons_eq_andThen, hg, Matcher.andThen_lead, ← Goal.run_append]
  exact lead F missing h

/-- **A goal that commits.**  Something that may be missing, and then goals that might begin as it
does: where they do, it is not missing. -/
theorem maybe_cons {k : Nat} {g : Goal} {body goals : List Goal}
    (hg : Goal.run [g] = Matcher.maybe F (Goal.run body)) (missing : SyntaxError) (hn : n ≤ k + 1)
    (h : RecognizesBefore E k (Goal.run (body ++ goals)) L p)
    (h' : RecognizesBefore E n (Goal.run goals) M q) :
    RecognizesBefore E n (Goal.run (g :: goals)) (anyOf F * L + avoiding F M)
      (Profile.or ⟨F, p.extend, false⟩ q) := by
  rw [Goal.run_cons_eq_andThen, hg, Matcher.andThen_maybe F missing, ← Goal.run_append]
  exact choose_avoiding ((lead F missing h).mono hn) h' nofun

/-- A goal for further repetitions of a part, each of which something in front of it begins.  After
a repetition comes another or what follows them all, so that `E` must hold of more when it holds of
less. -/
theorem repeated_before {front : List Terminal → Option (List Terminal)} {K : Language Terminal}
    {g : Goal} {body : List Goal} (hE : ∀ b rest, E rest → E (b ++ rest)) (hK : Takes front K F)
    (h : RecognizesBefore E n (Goal.run body) L p)
    (hg : Goal.run [g] = Matcher.attempt front (Goal.run (body ++ [g])))
    (hs : Terminal.disjoint p.extend F = true) :
    RecognizesBefore E (n + 1) (Goal.run [g]) ((K * L)∗)
      ⟨F, fun t => F t || p.extend t, true⟩ := by
  suffices hk : ∀ k ≤ n + 1, RecognizesBefore E k (Goal.run [g]) ((K * L)∗)
      ⟨F, fun t => F t || p.extend t, true⟩ from hk (n + 1) le_rfl
  intro k
  induction k with
  | zero => exact fun _ => zero ..
  | succ k ih =>
    intro hk
    -- The part in front takes a terminal, so what comes after it is within the lower bound.
    have again := append_before (h.mono (by omega)) (ih (by omega)) (fun b _ => hE b) hs
    have once := attempt hK again
    rw [← hg, ← mul_assoc, optional_mul_kstar] at once
    refine once.within ⟨fun _ => id, fun t ht => ?_, fun _ => rfl⟩
    simpa [Profile.append] using ht

theorem repeated {front : List Terminal → Option (List Terminal)} {K : Language Terminal}
    {g : Goal} {body : List Goal} (hK : Takes front K F) (h : Recognizes n (Goal.run body) L p)
    (hg : Goal.run [g] = Matcher.attempt front (Goal.run (body ++ [g])))
    (hs : Terminal.disjoint p.extend F = true) :
    Recognizes (n + 1) (Goal.run [g]) ((K * L)∗) ⟨F, fun t => F t || p.extend t, true⟩ :=
  repeated_before (fun _ _ _ => trivial) hK h hg hs

end RecognizesBefore
end SqlChecker
