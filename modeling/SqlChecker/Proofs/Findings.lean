import Mathlib.Data.List.Forall2
import SqlChecker.Proofs.Matching.FirstWord
import SqlChecker.Proofs.Places

/-! # What is found, and where

What is wrong with tokens is told from their faults and their terminals alone (`Verdict.findings`).
The text of a token matters only for an unknown statement, which quotes its first word, and the
place of a token only for the place of a problem.  So two lists of tokens with the same faults and
terminals have the same findings, each told of the tokens of its own list (`parse_tells`).
-/
namespace SqlChecker

/-- Something wrong with tokens. -/
inductive Finding where
  | fault (message : String)
  | breaksOff (e : SyntaxError)

/-- What is said of it at a token with the text `found`. -/
def Finding.message (found : String) : Finding → String
  | fault message => message
  | breaksOff e => e.message found

/-- Two problems say the same, or each says of what it quotes that it begins no statement. -/
def Diagnostic.SaysSame (Quotes : String → String → Prop) (d d' : Diagnostic) : Prop :=
  d'.message = d.message ∨ ∃ found found', Quotes found found' ∧
    d.message = SyntaxError.unknownStatement.message found ∧
    d'.message = SyntaxError.unknownStatement.message found'

variable {tokens tokens' : List Token} {faults : List (Option String)} {terminals : List Terminal}
variable {found : Nat × Finding}

theorem SyntaxError.message_eq {e : SyntaxError} (h : e ≠ .unknownStatement) (v v' : String) :
    e.message v = e.message v' := by
  cases e <;> first | rfl | exact absurd rfl h

namespace Verdict

/-- The faults, each with its index. -/
def faultFindings (faults : List (Option String)) : List (Nat × Finding) :=
  faults.zipIdx.filterMap fun (fault?, i) => fault?.map fun message => (i, .fault message)

/-- What is wrong with tokens that have these faults and are these terminals, each with the index of
the token to be pointed at. -/
def findings (faults : List (Option String)) (terminals : List Terminal) :
    List (Nat × Finding) :=
  match faultFindings faults with
  | [] => match Goal.run [.statement] terminals with
    | .accepted _ => []
    | .rejected e rest =>
      [(min (terminals.length - rest.length) (terminals.length - 1), .breaksOff e)]
  | found => found

/-- The text of the token with an index. -/
def valueAt (tokens : List Token) (i : Nat) : String := (tokens[i]?.map Token.value).getD ""

/-- A finding, told of the token with its index. -/
def problem (tokens : List Token) (found : Nat × Finding) : Diagnostic :=
  Diagnostic.locate (found.2.message (valueAt tokens found.1)) tokens[found.1]?

theorem faults_eq (tokens : List Token) :
    Verdict.faults tokens = (faultFindings (tokens.map Token.fault?)).map (problem tokens) := by
  have hindexed : Verdict.faults tokens =
      tokens.zipIdx.filterMap fun p => p.1.fault?.map (Diagnostic.locate · (some p.1)) := by
    conv_lhs => rw [Verdict.faults, ← List.zipIdx_map_fst 0 tokens, List.filterMap_map]
    rfl
  rw [hindexed, faultFindings, List.zipIdx_map, List.filterMap_map, List.map_filterMap]
  refine List.filterMap_congr fun p hmem => ?_
  obtain ⟨t, i⟩ := p
  have hget : tokens[i]? = some t := List.mk_mem_zipIdx_iff_getElem?.mp hmem
  show _ = (t.fault?.map fun message => (i, Finding.fault message)).map (problem tokens)
  rw [Option.map_map]
  refine congrArg (t.fault?.map ·) (funext fun message => ?_)
  simp only [Function.comp_apply, problem, hget]
  rfl

/-- **What is reported of tokens** is what is found, told of them. -/
theorem errors_parse (tokens : List Token) : (parse tokens).errors =
    (findings (tokens.map Token.fault?) (tokens.map Token.terminal)).map (problem tokens) := by
  have hfaults := faults_eq tokens
  rw [parse, ofTokens, findings]
  cases hf : faultFindings (tokens.map Token.fault?) with
  | cons f fs =>
    rw [hf] at hfaults
    rw [hfaults]
    rfl
  | nil =>
    rw [hf] at hfaults
    rw [hfaults]
    show (ofStatement tokens).report.errors = _
    rw [ofStatement]
    cases Goal.run [.statement] (tokens.map Token.terminal) with
    | accepted rest => rfl
    | rejected e rest =>
      simp only [List.length_map]
      show [syntaxProblem tokens (tokens.length - rest.length) e] = _
      rw [syntaxProblem_eq, tokenAt?_eq]
      rfl

/-- What is found is found at a token, if there is any. -/
theorem lt_length_of_mem_findings (hne : tokens ≠ [])
    (h : found ∈ findings (tokens.map Token.fault?) (tokens.map Token.terminal)) :
    found.1 < tokens.length := by
  have hpos := List.length_pos_iff.mpr hne
  rw [findings, List.length_map] at h
  split at h
  · split at h
    · cases h
    · obtain rfl := List.mem_singleton.mp h
      show min _ _ < _
      omega
  · obtain ⟨⟨fault?, i⟩, hmem, hfound⟩ := List.mem_filterMap.mp h
    obtain ⟨message, -, rfl⟩ := Option.map_eq_some_iff.mp hfound
    have hlt := List.snd_lt_of_mem_zipIdx hmem
    rwa [List.length_map, Nat.add_zero] at hlt

/-- **Only the first word of a statement is quoted.** -/
theorem message_eq_of_mem_findings (h : found ∈ findings faults terminals) :
    found = (0, .breaksOff .unknownStatement) ∨
      ∀ v v', found.2.message v = found.2.message v' := by
  rw [findings] at h
  split at h
  · split at h
    · cases h
    · next e rest hr =>
      obtain rfl := List.mem_singleton.mp h
      by_cases he : e = .unknownStatement
      · subst he
        rw [Goal.eq_of_run_unknownStatement hr, Nat.sub_self, Nat.zero_min]
        exact .inl rfl
      · exact .inr fun v v' => SyntaxError.message_eq he v v'
  · obtain ⟨⟨fault?, i⟩, -, hfound⟩ := List.mem_filterMap.mp h
    obtain ⟨message, -, rfl⟩ := Option.map_eq_some_iff.mp hfound
    exact .inr fun _ _ => rfl

theorem mem_faultFindings_iff {i : Nat} :
    i ∈ (faultFindings faults).map Prod.fst ↔ ∃ message, faults[i]? = some (some message) := by
  simp only [faultFindings, List.mem_map, List.mem_filterMap, Prod.exists,
    List.mk_mem_zipIdx_iff_getElem?, Option.map_eq_some_iff, Prod.mk.injEq]
  constructor
  · rintro ⟨_, _, ⟨_, _, hget, message, rfl, rfl, rfl⟩, rfl⟩
    exact ⟨message, hget⟩
  · rintro ⟨message, hget⟩
    exact ⟨i, .fault message, ⟨some message, i, hget, message, rfl, rfl, rfl⟩, rfl⟩

theorem faultFindings_eq_nil_iff :
    faultFindings faults = [] ↔ ∀ fault? ∈ faults, fault? = none := by
  rw [faultFindings, List.filterMap_eq_nil_iff]
  constructor
  · intro h fault? hmem
    obtain ⟨i, hi⟩ := List.mem_iff_getElem?.mp hmem
    exact Option.map_eq_none_iff.mp (h (fault?, i) (List.mk_mem_zipIdx_iff_getElem?.mpr hi))
  · rintro h ⟨fault?, i⟩ hmem
    rw [h fault? (List.mem_of_getElem? (List.mk_mem_zipIdx_iff_getElem?.mp hmem))]
    rfl

/-- Where there are faults, they are what is found. -/
theorem findings_of_fault (h : ∃ fault? ∈ faults, fault? ≠ none) :
    findings faults terminals = faultFindings faults := by
  rw [findings]
  split
  · next hnil =>
    obtain ⟨fault?, hmem, hne⟩ := h
    exact absurd (faultFindings_eq_nil_iff.mp hnil fault? hmem) hne
  · rfl

/-- **Findings come in the order of the tokens**, and one for each at most. -/
theorem pairwise_findings (faults : List (Option String)) (terminals : List Terminal) :
    (findings faults terminals).Pairwise fun found found' => found.1 < found'.1 := by
  have hindices : faults.zipIdx.Pairwise fun p q => p.2 < q.2 := by
    refine List.pairwise_map.mp ?_
    rw [List.zipIdx_map_snd]
    exact List.pairwise_lt_range'
  rw [findings]
  split
  · split
    · exact List.Pairwise.nil
    · exact List.pairwise_singleton ..
  · refine hindices.filterMap _ fun p q hlt found hfound found' hfound' => ?_
    obtain ⟨_, -, rfl⟩ := Option.map_eq_some_iff.mp hfound
    obtain ⟨_, -, rfl⟩ := Option.map_eq_some_iff.mp hfound'
    exact hlt

end Verdict

/-! ### Two lists of tokens -/

/-- Reports with problems that correspond agree on whether there are any. -/
theorem Report.isValid_eq_of_forall₂ {R : Diagnostic → Diagnostic → Prop} {r r' : Report}
    (h : List.Forall₂ R r.errors r'.errors) : r'.isValid = r.isValid := by
  rw [isValid, isValid, Bool.eq_iff_iff, List.isEmpty_iff, List.isEmpty_iff,
    ← List.length_eq_zero_iff, ← List.length_eq_zero_iff, h.length_eq]

namespace Diagnostic

variable {d d' : Diagnostic} {t? t'? : Option Token}

theorem PointsAt.place_eq (h : d.PointsAt t?) :
    (d.line, d.word) = (t?.map fun t => (t.line, t.word)).getD (0, 0) := by
  cases t? <;> exact Prod.ext h.1 h.2.1

theorem PointsAt.offset?_eq (h : d.PointsAt t?) : d.offset? = t?.map (·.span.start) := by
  cases t? <;> exact h.2.2

/-- Tokens with the same places are pointed at in the same places. -/
theorem PointsAt.place_eq_place {i : Nat}
    (hplaces : tokens'.map (fun t => (t.line, t.word)) = tokens.map fun t => (t.line, t.word))
    (hd : d.PointsAt tokens[i]?) (hd' : d'.PointsAt tokens'[i]?) :
    d'.line = d.line ∧ d'.word = d.word := by
  have hplace : (d'.line, d'.word) = (d.line, d.word) := by
    rw [hd.place_eq, hd'.place_eq, ← List.getElem?_map, ← List.getElem?_map, hplaces]
  exact Prod.mk.inj hplace

/-- A problem tells a finding of tokens: it says so, and points at the token with the index. -/
structure Tells (found : Nat × Finding) (tokens : List Token) (d : Diagnostic) : Prop where
  message_eq : d.message = found.2.message (Verdict.valueAt tokens found.1)
  pointsAt : d.PointsAt tokens[found.1]?

theorem tells_problem (tokens : List Token) (found : Nat × Finding) :
    Tells found tokens (Verdict.problem tokens found) :=
  ⟨message_locate _ _, pointsAt_locate _ _ ""⟩

theorem Tells.withLine (h : Tells found tokens d) (content : String) :
    Tells found tokens { d with lineContent := content } :=
  ⟨h.message_eq, h.pointsAt⟩

/-- Problems that tell the same finding of two lists say the same, but for what they quote of the
first word. -/
theorem Tells.saysSame {Quotes : String → String → Prop}
    (hmem : found ∈ Verdict.findings faults terminals)
    (hquotes : Verdict.valueAt tokens' 0 = Verdict.valueAt tokens 0 ∨
      Quotes (Verdict.valueAt tokens 0) (Verdict.valueAt tokens' 0))
    (hd : Tells found tokens d) (hd' : Tells found tokens' d') : d.SaysSame Quotes d' := by
  rcases Verdict.message_eq_of_mem_findings hmem with rfl | hsame
  · rcases hquotes with heq | hquotes
    · exact .inl (by rw [hd.message_eq, hd'.message_eq, heq])
    · exact .inr ⟨_, _, hquotes, hd.message_eq, hd'.message_eq⟩
  · exact .inl (by rw [hd.message_eq, hd'.message_eq, hsame])

end Diagnostic

/-- What is the same of tokens that are related is the same along lists of them. -/
theorem map_eq_of_forall₂ {α : Type} {R : Token → Token → Prop} {f : Token → α}
    (h : List.Forall₂ R tokens tokens') (hf : ∀ t t', R t t' → f t' = f t) :
    tokens'.map f = tokens.map f := by
  induction h with
  | nil => rfl
  | cons ht _ ih => rw [List.map_cons, List.map_cons, hf _ _ ht, ih]

open Verdict in
/-- **Tokens with the same faults and terminals** have the same problems, each told of its own
tokens. -/
theorem parse_tells (hfaults : tokens'.map Token.fault? = tokens.map Token.fault?)
    (hterminals : tokens'.map Token.terminal = tokens.map Token.terminal)
    (source source' : List Char) :
    List.Forall₂
      (fun d d' => ∃ found ∈ findings (tokens.map Token.fault?) (tokens.map Token.terminal),
        d.Tells found tokens ∧ d'.Tells found tokens')
      ((parse tokens).attachLines source).errors ((parse tokens').attachLines source').errors := by
  rw [Report.attachLines, Report.attachLines, errors_parse, errors_parse, hfaults, hterminals,
    List.map_map, List.map_map, List.forall₂_map_left_iff, List.forall₂_map_right_iff,
    List.forall₂_same]
  exact fun found hmem => ⟨found, hmem, (Diagnostic.tells_problem tokens found).withLine _,
    (Diagnostic.tells_problem tokens' found).withLine _⟩

/-- **Such problems say the same**, but for what they quote of the first word, and point at tokens
with the same index. -/
theorem parse_saysSame {Quotes : String → String → Prop}
    (hfaults : tokens'.map Token.fault? = tokens.map Token.fault?)
    (hterminals : tokens'.map Token.terminal = tokens.map Token.terminal)
    (hquotes : Verdict.valueAt tokens' 0 = Verdict.valueAt tokens 0 ∨
      Quotes (Verdict.valueAt tokens 0) (Verdict.valueAt tokens' 0))
    (source source' : List Char) :
    List.Forall₂
      (fun d d' => (∃ i : Nat, d.PointsAt tokens[i]? ∧ d'.PointsAt tokens'[i]?) ∧
        d.SaysSame Quotes d')
      ((parse tokens).attachLines source).errors ((parse tokens').attachLines source').errors := by
  refine (parse_tells hfaults hterminals source source').imp ?_
  rintro d d' ⟨found, hmem, hd, hd'⟩
  exact ⟨⟨found.1, hd.pointsAt, hd'.pointsAt⟩, hd.saysSame hmem hquotes hd'⟩

end SqlChecker
