import Mathlib.Computability.Language
import Mathlib.Data.List.TakeWhile
import SqlChecker.Lexeme.Trivia

/-! # What is trivia

Trivia is a sequence of blanks, line comments with their newlines, and block comments, each up to
the first closing mark after its opening mark.  At the end of a text a line comment may lack its
newline.  Splitting trivia off a text takes such a sequence, and takes all of it.
-/
namespace SqlChecker.Trivia
open Computability

/-- A closing mark stands at the end of the text, and none stands before it. -/
def ClosesAtEnd (text : List Char) : Prop :=
  (∃ body, text = body ++ ['*', '/']) ∧ ∀ a b, text = a ++ '*' :: '/' :: b → b = []

/-- A blank or a comment. -/
inductive IsPiece : List Char → Prop where
  | blank {c : Char} (h : Text.isBlank c = true) : IsPiece [c]
  | lineComment {body : List Char} (h : '\n' ∉ body) :
      IsPiece ('-' :: '-' :: body ++ ['\n'])
  | blockComment {body : List Char} (h : ClosesAtEnd body) : IsPiece ('/' :: '*' :: body)

/-- What may stand in front of a token: blanks and comments. -/
def gap : Language Char := {p | IsPiece p}∗

/-- A line comment without a newline. -/
def openLineComment : Language Char := {text | ∃ body, '\n' ∉ body ∧ text = '-' :: '-' :: body}

/-- What may stand behind the last token: blanks and comments, the last of which may be a line
comment without a newline. -/
def tail : Language Char := gap * (1 + openLineComment)

theorem nil_mem_gap : [] ∈ gap := Language.nil_mem_kstar _

theorem append_mem_gap {piece text : List Char} (hp : IsPiece piece) (ht : text ∈ gap) :
    piece ++ text ∈ gap := by
  obtain ⟨pieces, rfl, hpieces⟩ := Language.mem_kstar.mp ht
  exact Language.mem_kstar.mpr ⟨piece :: pieces, rfl, List.forall_mem_cons.mpr ⟨hp, hpieces⟩⟩

theorem gap_mul_gap : gap * gap = gap := kstar_mul_kstar _

/-- What holds of nothing at all and goes on holding with a further piece in front holds of all that
may stand in front of a token. -/
theorem gap_induction {P : List Char → Prop} (nil : P [])
    (append : ∀ {piece text}, IsPiece piece → P text → P (piece ++ text)) {text : List Char}
    (h : text ∈ gap) : P text := by
  obtain ⟨pieces, rfl, hpieces⟩ := Language.mem_kstar.mp h
  induction pieces with
  | nil => exact nil
  | cons piece pieces ih =>
    have hrest : ∀ p ∈ pieces, IsPiece p := fun p hp => hpieces p (List.mem_cons_of_mem piece hp)
    exact append (hpieces piece List.mem_cons_self) (ih hrest (Language.join_mem_kstar hrest))

theorem tail_eq : tail = gap + gap * openLineComment := by
  rw [tail, mul_add, mul_one]

theorem mem_tail_of_mem_gap {text : List Char} (h : text ∈ gap) : text ∈ tail := by
  rw [tail_eq]
  exact .inl h

theorem append_mem_tail {piece text : List Char} (hp : IsPiece piece) (ht : text ∈ tail) :
    piece ++ text ∈ tail := by
  obtain ⟨g, hg, c, hc, rfl⟩ := Language.mem_mul.mp ht
  rw [← List.append_assoc]
  exact Language.append_mem_mul (append_mem_gap hp hg) hc

/-! ### Comments -/

theorem closesAtEnd_mark : ClosesAtEnd ['*', '/'] := by
  refine ⟨⟨[], rfl⟩, fun a b h => ?_⟩
  have hl := congrArg List.length h
  simp only [List.length_append, List.length_cons, List.length_nil] at hl
  exact List.eq_nil_of_length_eq_zero (by omega)

/-- A character in front of a comment does not begin a closing mark. -/
theorem closesAtEnd_cons_iff {c d : Char} {text : List Char} (h : ¬ (c = '*' ∧ d = '/')) :
    ClosesAtEnd (c :: d :: text) ↔ ClosesAtEnd (d :: text) := by
  constructor
  · rintro ⟨⟨body, hbody⟩, hfirst⟩
    refine ⟨?_, fun a b hab => hfirst (c :: a) b (by rw [hab]; rfl)⟩
    cases body with
    | nil => simp_all
    | cons e body => exact ⟨body, (List.cons.inj hbody).2⟩
  · rintro ⟨⟨body, hbody⟩, hfirst⟩
    refine ⟨⟨c :: body, by rw [hbody]; rfl⟩, fun a b hab => ?_⟩
    cases a with
    | nil => simp_all
    | cons e a => exact hfirst a b (List.cons.inj hab).2

theorem closesAtEnd_of_splitComment? {text body after : List Char}
    (h : splitComment? text = some (body, after)) : ClosesAtEnd body := by
  fun_induction splitComment? text generalizing body with
  | case1 => simp at h
  | case2 => simp at h
  | case3 c d rest hcd =>
    obtain ⟨rfl, rfl⟩ := Prod.mk.inj (Option.some.inj h)
    exact closesAtEnd_mark
  | case4 c d rest hcd ih =>
    obtain ⟨⟨b, a⟩, hb, he⟩ := Option.map_eq_some_iff.mp h
    obtain ⟨rfl, rfl⟩ := Prod.mk.inj he
    obtain ⟨⟨inner, rfl⟩, hfirst⟩ := ih hb
    -- The mark is not made up of this character and the next one.
    obtain ⟨e, tail, he⟩ := List.exists_cons_of_ne_nil (l := inner ++ ['*', '/']) (by simp)
    have hd := append_of_splitComment? hb
    rw [he] at hd hfirst ⊢
    obtain rfl := (List.cons.inj hd).1
    exact (closesAtEnd_cons_iff hcd).mpr ⟨⟨inner, he.symm⟩, hfirst⟩

theorem splitComment?_append {body : List Char} (h : ClosesAtEnd body) (after : List Char) :
    splitComment? (body ++ after) = some (body, after) := by
  induction body with
  | nil => simp [ClosesAtEnd] at h
  | cons c body ih =>
    cases body with
    | nil =>
      obtain ⟨⟨inner, he⟩, -⟩ := h
      have hl := congrArg List.length he
      simp at hl
    | cons d body =>
      rw [List.cons_append, List.cons_append, splitComment?]
      split
      · next hcd =>
        obtain ⟨rfl, rfl⟩ := hcd
        rw [h.2 [] body rfl]
        rfl
      · next hcd =>
        rw [← List.cons_append, ih ((closesAtEnd_cons_iff hcd).mp h)]
        rfl

/-! ### Splitting -/

theorem splitPiece?_blank {c : Char} (h : Text.isBlank c = true) (rest : List Char) :
    splitPiece? (c :: rest) = some ([c], rest) := by
  rw [splitPiece?, if_pos h]

/-- A line comment is split off without its newline. -/
theorem splitPiece?_lineComment {body rest : List Char} (hb : '\n' ∉ body)
    (hr : rest = [] ∨ ∃ after, rest = '\n' :: after) :
    splitPiece? ('-' :: '-' :: body ++ rest) = some ('-' :: '-' :: body, rest) := by
  have hinside : ∀ c ∈ '-' :: body, (c != '\n') = true := by
    intro c hc
    rcases List.mem_cons.mp hc with rfl | hc
    · rfl
    · exact bne_iff_ne.mpr fun he => hb (he ▸ hc)
  have hstop : rest.takeWhile (· != '\n') = [] ∧ rest.dropWhile (· != '\n') = rest := by
    rcases hr with rfl | ⟨after, rfl⟩ <;> exact ⟨rfl, rfl⟩
  show splitPiece? ('-' :: ('-' :: body ++ rest)) = _
  rw [splitPiece?, if_neg (by decide), if_pos ⟨rfl, rfl⟩,
    List.takeWhile_append_of_pos hinside, List.dropWhile_append_of_pos hinside, hstop.1, hstop.2,
    List.append_nil]

theorem splitPiece?_blockComment {body : List Char} (h : ClosesAtEnd body) (rest : List Char) :
    splitPiece? ('/' :: '*' :: body ++ rest) = some ('/' :: '*' :: body, rest) := by
  show splitPiece? ('/' :: ('*' :: (body ++ rest))) = _
  rw [splitPiece?, if_neg (by decide), if_neg (by simp), if_pos ⟨rfl, rfl⟩, List.tail_cons,
    splitComment?_append h]
  rfl

theorem dropWhile_newline (text : List Char) :
    text.dropWhile (· != '\n') = [] ∨ ∃ after, text.dropWhile (· != '\n') = '\n' :: after := by
  cases hd : text.dropWhile (· != '\n') with
  | nil => exact .inl rfl
  | cons c after =>
    have hc := List.head?_dropWhile_not (· != '\n') text
    rw [hd] at hc
    exact .inr ⟨after, by simp_all⟩

/-- What is split off is a piece, or a line comment without its newline. -/
theorem isPiece_of_splitPiece? {text piece rest : List Char}
    (h : splitPiece? text = some (piece, rest)) :
    IsPiece piece ∨ piece ∈ openLineComment ∧ (rest = [] ∨ ∃ after, rest = '\n' :: after) := by
  cases text with
  | nil => simp [splitPiece?] at h
  | cons c text =>
    rw [splitPiece?] at h
    split_ifs at h with hblank hline hblock
    · obtain ⟨rfl, rfl⟩ := Prod.mk.inj (Option.some.inj h)
      exact .inl (.blank hblank)
    · obtain ⟨rfl, rfl⟩ := Prod.mk.inj (Option.some.inj h)
      obtain ⟨rfl, hsecond⟩ := hline
      obtain ⟨text, rfl⟩ := List.head?_eq_some_iff.mp hsecond
      refine .inr ⟨⟨text.takeWhile (· != '\n'), fun hc => ?_, rfl⟩, ?_⟩
      · simpa using List.mem_takeWhile_imp hc
      · exact dropWhile_newline _
    · obtain ⟨⟨body, after⟩, hbody, he⟩ := Option.map_eq_some_iff.mp h
      obtain ⟨rfl, rfl⟩ := Prod.mk.inj he
      exact .inl (.blockComment (closesAtEnd_of_splitComment? hbody))

/-- **What is split off is trivia**: before something else a gap, and before nothing a tail.  The
induction is on the length, since a line comment takes its newline from the piece after it. -/
theorem split_mem (text : List Char) :
    (split text).1 ∈ tail ∧ ((split text).2 ≠ [] → (split text).1 ∈ gap) := by
  induction hn : text.length using Nat.strong_induction_on generalizing text with
  | _ n ih =>
    subst hn
    cases hp : splitPiece? text with
    | none =>
      rw [split_of_none hp]
      exact ⟨mem_tail_of_mem_gap nil_mem_gap, fun _ => nil_mem_gap⟩
    | some found =>
      obtain ⟨piece, rest⟩ := found
      have hlt := length_of_splitPiece? hp
      rw [split_of_some hp]
      rcases isPiece_of_splitPiece? hp with hpiece | ⟨hopen, rfl | ⟨after, rfl⟩⟩
      · obtain ⟨htail, hgap⟩ := ih _ hlt rest rfl
        exact ⟨append_mem_tail hpiece htail, fun hne => append_mem_gap hpiece (hgap hne)⟩
      · rw [split_of_none rfl]
        refine ⟨?_, fun hne => absurd rfl hne⟩
        rw [tail_eq, List.append_nil]
        exact .inr (Language.append_mem_mul nil_mem_gap hopen)
      -- The newline completes the comment.
      · obtain ⟨body, hbody, rfl⟩ := hopen
        rw [split_of_some (splitPiece?_blank rfl after)]
        rw [List.length_cons] at hlt
        obtain ⟨htail, hgap⟩ := ih _ (Nat.lt_of_succ_lt hlt) after rfl
        have hpiece : IsPiece ('-' :: '-' :: body ++ ['\n']) := .lineComment hbody
        have hassoc (text : List Char) : '-' :: '-' :: body ++ (['\n'] ++ text) =
            '-' :: '-' :: body ++ ['\n'] ++ text := (List.append_assoc ..).symm
        rw [hassoc]
        exact ⟨append_mem_tail hpiece htail, fun hne => append_mem_gap hpiece (hgap hne)⟩

/-- A piece in front of a text is split off. -/
theorem split_append_of_isPiece {piece : List Char} (h : IsPiece piece) (rest : List Char) :
    (split (piece ++ rest)).2 = (split rest).2 := by
  cases h with
  | blank hc => rw [List.singleton_append, split_of_some (splitPiece?_blank hc rest)]
  | lineComment hbody =>
    rw [List.append_assoc, List.singleton_append,
      split_of_some (splitPiece?_lineComment hbody (.inr ⟨rest, rfl⟩)),
      split_of_some (splitPiece?_blank rfl rest)]
  | blockComment hbody => rw [split_of_some (splitPiece?_blockComment hbody rest)]

theorem split_append_of_mem_gap {text : List Char} (h : text ∈ gap) (rest : List Char) :
    (split (text ++ rest)).2 = (split rest).2 :=
  gap_induction (P := fun text => (split (text ++ rest)).2 = (split rest).2) rfl
    (fun hp ih => by rw [List.append_assoc, split_append_of_isPiece hp, ih]) h

/-- **A text is all trivia** just if nothing is left of it when trivia is split off. -/
theorem split_eq_nil_iff {text : List Char} : (split text).2 = [] ↔ text ∈ tail := by
  constructor
  · intro h
    have happ := append_split text
    rw [h, List.append_nil] at happ
    exact happ ▸ (split_mem text).1
  · intro h
    obtain ⟨g, hg, c, hc, rfl⟩ := Language.mem_mul.mp h
    rw [split_append_of_mem_gap hg]
    rcases hc with rfl | ⟨body, hbody, rfl⟩
    · rw [split_of_none rfl]
    · have hsplit := splitPiece?_lineComment hbody (.inl rfl)
      rw [List.append_nil] at hsplit
      rw [split_of_some hsplit, split_of_none rfl]

end SqlChecker.Trivia
