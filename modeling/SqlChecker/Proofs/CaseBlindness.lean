import SqlChecker.Proofs.Lexing.Case
import SqlChecker.Proofs.TokenKinds

/-! # Case does not matter

Sources that are the same in upper case have the same tokens but for the case of their values.  As
no more is read of a token than is the same in either case, what is reported of one is reported of
the other (`validate_sameButCase`).
-/
namespace SqlChecker

/-- Texts that differ in the case of their letters at most. -/
def SameInUpperCase (s s' : String) : Prop := s'.toUpper = s.toUpper

/-- Tokens of the same kind, at the same place, with the same value but for its case. -/
structure Token.SameButCase (t t' : Token) : Prop where
  kind_eq : t'.kind = t.kind
  line_eq : t'.line = t.line
  word_eq : t'.word = t.word
  span_eq : t'.span = t.span
  value_eq : SameInUpperCase t.value t'.value

/-- Problems at the same place that say the same, but for the case of the word that is quoted where
a statement should begin. -/
structure Diagnostic.SameButCase (d d' : Diagnostic) : Prop where
  line_eq : d'.line = d.line
  word_eq : d'.word = d.word
  offset?_eq : d'.offset? = d.offset?
  saysSame : d.SaysSame SameInUpperCase d'

variable {source source' : List Char} {t t' : Token}

/-! ### Tokens -/

theorem Token.sameButCase_of_upper_eq (h : t.upper = t'.upper) : t.SameButCase t' := by
  have hfields := Token.mk.inj h
  exact ⟨hfields.1.symm, hfields.2.2.1.symm, hfields.2.2.2.1.symm, hfields.2.2.2.2.symm,
    hfields.2.1.symm⟩

/-- Case does not matter for what is read of a token. -/
theorem Token.SameButCase.readsAs (h : t.SameButCase t') : t.ReadsAs t' := by
  have hupper : Text.upper t'.value.toList = Text.upper t.value.toList := by
    have hvalue := congrArg String.toList h.value_eq
    rwa [String.toUpper, String.toUpper, String.toList_map, String.toList_map] at hvalue
  have spells (word : String) : t'.Spells word ↔ t.Spells word := Eq.congr_left hupper
  exact ⟨h.kind_eq, fun _ => spells "NO", fun _ => spells "ACTION"⟩

theorem tokenize_sameButCase (h : Text.upper source = Text.upper source') :
    List.Forall₂ Token.SameButCase (tokenize source) (tokenize source') := by
  have htokens : (tokenize source).map Token.upper = (tokenize source').map Token.upper := by
    rw [← tokenize_upper, ← tokenize_upper, h]
  rw [← List.forall₂_eq_eq_eq, List.forall₂_map_left_iff, List.forall₂_map_right_iff] at htokens
  exact htokens.imp fun _ _ => Token.sameButCase_of_upper_eq

/-! ### What is reported -/

section
variable {tokens tokens' : List Token} (h : List.Forall₂ Token.SameButCase tokens tokens')
include h

theorem sameInUpperCase_valueAt_zero :
    SameInUpperCase (Verdict.valueAt tokens 0) (Verdict.valueAt tokens' 0) := by
  cases h with
  | nil => rfl
  | cons ht _ => exact ht.value_eq

/-- What is pointed at has the same place in both. -/
theorem Diagnostic.place_eq_of_sameButCase {d d' : Diagnostic} {i : Nat}
    (hd : d.PointsAt tokens[i]?) (hd' : d'.PointsAt tokens'[i]?) :
    d'.line = d.line ∧ d'.word = d.word ∧ d'.offset? = d.offset? := by
  have hplaces := map_eq_of_forall₂ h (f := fun t => (t.line, t.word)) fun _ _ ht => by
    rw [ht.line_eq, ht.word_eq]
  have hstarts := map_eq_of_forall₂ h (f := fun t => t.span.start) fun _ _ ht => by
    rw [ht.span_eq]
  obtain ⟨hline, hword⟩ := Diagnostic.PointsAt.place_eq_place hplaces hd hd'
  refine ⟨hline, hword, ?_⟩
  rw [hd.offset?_eq, hd'.offset?_eq, ← List.getElem?_map, ← List.getElem?_map, hstarts]

theorem parse_sameButCase (source source' : List Char) :
    List.Forall₂ Diagnostic.SameButCase ((parse tokens).attachLines source).errors
      ((parse tokens').attachLines source').errors := by
  have hfaults := map_eq_of_forall₂ h fun _ _ ht => ht.readsAs.fault?_eq
  have hterminals := map_eq_of_forall₂ h fun _ _ ht => ht.readsAs.terminal_eq
  have hsays := parse_saysSame hfaults hterminals (.inr (sameInUpperCase_valueAt_zero h)) source
    source'
  refine hsays.imp ?_
  rintro d d' ⟨⟨i, hd, hd'⟩, hsame⟩
  obtain ⟨hline, hword, hoffset⟩ := Diagnostic.place_eq_of_sameButCase h hd hd'
  exact ⟨hline, hword, hoffset, hsame⟩

end

theorem Text.byteLength_upper (text : List Char) :
    byteLength (upper text) = byteLength text := by
  induction text with
  | nil => rfl
  | cons c text ih =>
    show c.toUpper.utf8Size + byteLength (upper text) = _
    rw [ih, utf8Size_toUpper, byteLength_cons]

/-- **Case does not matter.**  Let two sources be the same in upper case.  Then their tokens are of
the same kinds, at the same places and have the same values but for case, and whatever the limit,
the same is reported of both at the same places, but for the case of a word that is quoted. -/
theorem validate_sameButCase (h : Text.upper source = Text.upper source') :
    List.Forall₂ Token.SameButCase (tokenize source) (tokenize source') ∧
    ∀ settings : Settings,
      (validate settings source').isValid = (validate settings source).isValid ∧
      List.Forall₂ Diagnostic.SameButCase (validate settings source).errors
        (validate settings source').errors := by
  have htokens := tokenize_sameButCase h
  refine ⟨htokens, fun settings => ?_⟩
  have hlength : Text.byteLength source' = Text.byteLength source := by
    rw [← Text.byteLength_upper source', ← h, Text.byteLength_upper]
  have herrors : List.Forall₂ Diagnostic.SameButCase (validate settings source).errors
      (validate settings source').errors := by
    have hexceeded : Validation.exceeded? settings source' =
        Validation.exceeded? settings source := by
      rw [Validation.exceeded?, Validation.exceeded?, hlength]
    rw [validate, validate, Validation.run, Validation.run, hexceeded]
    cases Validation.exceeded? settings source with
    | some limit => exact List.forall₂_same.mpr fun d _ => ⟨rfl, rfl, rfl, .inl rfl⟩
    | none => exact parse_sameButCase htokens source source'
  exact ⟨Report.isValid_eq_of_forall₂ herrors, herrors⟩

/-- A word that begins no statement is quoted as it is written. -/
theorem validate_sameButCase_mixed :
    Text.upper "gRant 'é' on".toList = Text.upper "GrAnT 'é' On".toList ∧
      List.Forall₂ Token.SameButCase (tokenize "gRant 'é' on".toList)
        (tokenize "GrAnT 'é' On".toList) ∧
      List.Forall₂ Diagnostic.SameButCase (validate {} "gRant 'é' on".toList).errors
        (validate {} "GrAnT 'é' On".toList).errors := by
  have h : Text.upper "gRant 'é' on".toList = Text.upper "GrAnT 'é' On".toList := by decide
  exact ⟨h, (validate_sameButCase h).1, ((validate_sameButCase h).2 {}).2⟩

end SqlChecker
