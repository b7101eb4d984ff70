import SqlChecker.Lexer
import SqlChecker.Proofs.Findings

/-! # What is read of a token

Of a token no more is read than its kind, and of an identifier whether it is one of the two words
that mean something without being keywords.  So two lists of tokens that agree in this much are
judged alike: what is found in the one is found in the other, at tokens with the same indices
(`parse_readsAs`).  The places and the texts of tokens appear in what is reported, and nowhere
else.
-/
namespace SqlChecker

/-- The text of a token is this word, in whatever case. -/
def Token.Spells (t : Token) (word : String) : Prop :=
  t.value.toList.map Char.toUpper = word.toList

instance (t : Token) (word : String) : Decidable (t.Spells word) :=
  inferInstanceAs (Decidable (_ = _))

/-- Tokens of the same kind, which agree on being `NO` and on being `ACTION` if they are
identifiers. -/
structure Token.ReadsAs (t t' : Token) : Prop where
  kind_eq : t'.kind = t.kind
  no_iff : t.kind = .identifier → (t'.Spells "NO" ↔ t.Spells "NO")
  action_iff : t.kind = .identifier → (t'.Spells "ACTION" ↔ t.Spells "ACTION")

instance (t t' : Token) : Decidable (t.ReadsAs t') :=
  decidable_of_iff (t'.kind = t.kind ∧ (t.kind = .identifier → (t'.Spells "NO" ↔ t.Spells "NO")) ∧
    (t.kind = .identifier → (t'.Spells "ACTION" ↔ t.Spells "ACTION")))
    ⟨fun h => ⟨h.1, h.2.1, h.2.2⟩, fun h => ⟨h.kind_eq, h.no_iff, h.action_iff⟩⟩

/-- The problems of a report point at the tokens with these indices, one at each. -/
def Report.PointsAt (r : Report) (tokens : List Token) (indices : List Nat) : Prop :=
  List.Forall₂ (fun i d => ∃ t, tokens[i]? = some t ∧ d.PointsAt (some t)) indices r.errors

/-- The texts of the first tokens of two lists. -/
def AreFirstValues (tokens tokens' : List Token) (v v' : String) : Prop :=
  (tokens.head?.map Token.value, tokens'.head?.map Token.value) = (some v, some v')

variable {t t' : Token} {tokens tokens' : List Token}

/-! ### Tokens -/

theorem PlainWord.ofText_eq_no_iff {text : List Char} :
    ofText text = .no ↔ text.map Char.toUpper = "NO".toList := by
  unfold ofText
  split <;> simp_all

theorem PlainWord.ofText_eq_action_iff {text : List Char} :
    ofText text = .action ↔ text.map Char.toUpper = "ACTION".toList := by
  unfold ofText
  split <;> simp_all

namespace Token.ReadsAs

theorem fault?_eq (h : t.ReadsAs t') : t'.fault? = t.fault? := by
  rw [fault?, fault?, h.kind_eq]

/-- Identifiers that agree on the two words are the same plain word. -/
theorem plainWord_eq (h : t.ReadsAs t') (hkind : t.kind = .identifier) :
    PlainWord.ofText t'.value.toList = PlainWord.ofText t.value.toList := by
  have hno : PlainWord.ofText t'.value.toList = .no ↔ PlainWord.ofText t.value.toList = .no := by
    rw [PlainWord.ofText_eq_no_iff, PlainWord.ofText_eq_no_iff]
    exact h.no_iff hkind
  have haction : PlainWord.ofText t'.value.toList = .action ↔
      PlainWord.ofText t.value.toList = .action := by
    rw [PlainWord.ofText_eq_action_iff, PlainWord.ofText_eq_action_iff]
    exact h.action_iff hkind
  cases hw : PlainWord.ofText t.value.toList with
  | no => exact hno.mpr hw
  | action => exact haction.mpr hw
  | other =>
    rw [hw] at hno haction
    cases hw' : PlainWord.ofText t'.value.toList with
    | no => cases hno.mp hw'
    | action => cases haction.mp hw'
    | other => rfl

theorem terminal_eq (h : t.ReadsAs t') : t'.terminal = t.terminal := by
  rw [terminal, terminal, h.kind_eq]
  cases hkind : t.kind with
  | identifier => exact congrArg Terminal.identifier (h.plainWord_eq hkind)
  | _ => rfl

end Token.ReadsAs

/-! ### What is reported -/

open Verdict in
/-- What is found of tokens is pointed at where it is found. -/
theorem Report.pointsAt_of_errors {r : Report} {found : List (Nat × Finding)}
    (hr : r.errors = found.map (problem tokens)) (hlt : ∀ f ∈ found, f.1 < tokens.length) :
    r.PointsAt tokens (found.map Prod.fst) := by
  rw [PointsAt, hr, List.forall₂_map_left_iff, List.forall₂_map_right_iff, List.forall₂_same]
  intro f hf
  have hf := hlt f hf
  have hget := List.getElem?_eq_getElem hf
  refine ⟨tokens[f.1], hget, ?_⟩
  rw [← hget]
  exact (Diagnostic.tells_problem tokens f).pointsAt

theorem areFirstValues_valueAt (h : tokens.length = tokens'.length) :
    Verdict.valueAt tokens' 0 = Verdict.valueAt tokens 0 ∨
      AreFirstValues tokens tokens' (Verdict.valueAt tokens 0) (Verdict.valueAt tokens' 0) := by
  cases tokens with
  | nil =>
    obtain rfl := List.length_eq_zero_iff.mp h.symm
    exact .inl rfl
  | cons t ts =>
    cases tokens' with
    | nil => cases h
    | cons t' ts' => exact .inr rfl

/-- The faults of tokens are found at their indices. -/
theorem mem_indices_iff_of_fault {terminals : List Terminal}
    (h : ∃ t ∈ tokens, t.fault? ≠ none) (i : Nat) :
    i ∈ (Verdict.findings (tokens.map Token.fault?) terminals).map Prod.fst ↔
      ∃ t, tokens[i]? = some t ∧ t.fault? ≠ none := by
  obtain ⟨t, ht, hne⟩ := h
  rw [Verdict.findings_of_fault ⟨_, List.mem_map_of_mem ht, hne⟩, Verdict.mem_faultFindings_iff,
    List.getElem?_map]
  simp only [Option.map_eq_some_iff, Option.ne_none_iff_exists']
  constructor
  · rintro ⟨message, t, hget, hmessage⟩
    exact ⟨t, hget, message, hmessage⟩
  · rintro ⟨t, hget, message, hmessage⟩
    exact ⟨message, t, hget, hmessage⟩

/-- **Only kinds are read.**  Let two lists of tokens agree in their kinds, and in which of their
identifiers are `NO` and `ACTION`.  Then the same number of problems is reported of both.  If there
are no tokens, there is no place for the one problem.  Otherwise the problems point at the tokens
with the same indices in the one list and in the other: those of the faults, if there are any, and
else at one token at most.  The problems say the same, but that an unknown statement is quoted by
the first token of its own list. -/
theorem parse_readsAs (h : List.Forall₂ Token.ReadsAs tokens tokens') :
    (parse tokens').errors.length = (parse tokens).errors.length ∧
    (tokens = [] → (parse tokens).errors = [⟨"Empty SQL statement", 0, 0, "", none⟩] ∧
      (parse tokens').errors = [⟨"Empty SQL statement", 0, 0, "", none⟩]) ∧
    (tokens ≠ [] → ∃ indices : List Nat, indices.Pairwise (· < ·) ∧
      (parse tokens).PointsAt tokens indices ∧ (parse tokens').PointsAt tokens' indices ∧
      ((∃ t ∈ tokens, t.fault? ≠ none) →
        ∀ i, i ∈ indices ↔ ∃ t, tokens[i]? = some t ∧ t.fault? ≠ none) ∧
      ((∀ t ∈ tokens, t.fault? = none) → indices.length ≤ 1)) ∧
    List.Forall₂ (Diagnostic.SaysSame (AreFirstValues tokens tokens'))
      (parse tokens).errors (parse tokens').errors := by
  have hfaults := map_eq_of_forall₂ h fun _ _ ht => ht.fault?_eq
  have hterminals := map_eq_of_forall₂ h fun _ _ ht => ht.terminal_eq
  have herrors := Verdict.errors_parse tokens
  have herrors' := Verdict.errors_parse tokens'
  rw [hfaults, hterminals] at herrors'
  refine ⟨?_, ?_, fun hne => ⟨_, ?_, Report.pointsAt_of_errors herrors ?_,
    Report.pointsAt_of_errors herrors' ?_, mem_indices_iff_of_fault, ?_⟩, ?_⟩
  · rw [herrors, herrors', List.length_map, List.length_map]
  · rintro rfl
    cases h
    exact ⟨congrArg Report.errors parse_nil, congrArg Report.errors parse_nil⟩
  · exact List.pairwise_map.mpr (Verdict.pairwise_findings ..)
  · exact fun found hmem => Verdict.lt_length_of_mem_findings hne hmem
  · rw [← h.length_eq]
    exact fun found hmem => Verdict.lt_length_of_mem_findings hne hmem
  · intro hnone
    have hle : (parse tokens).errors.length ≤ 1 := Verdict.length_report_le hnone
    rw [herrors, List.length_map] at hle
    rwa [List.length_map]
  · rw [herrors, herrors', List.forall₂_map_left_iff, List.forall₂_map_right_iff,
      List.forall₂_same]
    exact fun found hmem => (Diagnostic.tells_problem tokens found).saysSame hmem
      (areFirstValues_valueAt h.length_eq) (Diagnostic.tells_problem tokens' found)

/-- Other names on other lines, and `NO` in another case: the error is at the token behind it. -/
theorem parse_readsAs_noAction :
    List.Forall₂ Token.ReadsAs
      (tokenize "ALTER TABLE t ADD a INT REFERENCES b ON DELETE NO x".toList)
      (tokenize "alter table\nu add c text\nreferences d on delete No y".toList) ∧
    tokenize "ALTER TABLE t ADD a INT REFERENCES b ON DELETE NO x".toList ≠ [] ∧
    ∃ indices : List Nat, indices.Pairwise (· < ·) ∧
      (parse (tokenize "ALTER TABLE t ADD a INT REFERENCES b ON DELETE NO x".toList)).PointsAt
        (tokenize "ALTER TABLE t ADD a INT REFERENCES b ON DELETE NO x".toList) indices ∧
      (parse (tokenize "alter table\nu add c text\nreferences d on delete No y".toList)).PointsAt
        (tokenize "alter table\nu add c text\nreferences d on delete No y".toList) indices := by
  have h : List.Forall₂ Token.ReadsAs
      (tokenize "ALTER TABLE t ADD a INT REFERENCES b ON DELETE NO x".toList)
      (tokenize "alter table\nu add c text\nreferences d on delete No y".toList) := by
    decide +kernel
  have hne : tokenize "ALTER TABLE t ADD a INT REFERENCES b ON DELETE NO x".toList ≠ [] := by
    decide +kernel
  obtain ⟨indices, hordered, hpoint, hpoint', -⟩ := (parse_readsAs h).2.2.1 hne
  exact ⟨h, hne, indices, hordered, hpoint, hpoint'⟩

end SqlChecker
