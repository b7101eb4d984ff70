import SqlChecker.Json.Reader
import SqlChecker.Proofs.Json.Splitting

/-! # Values are read as they were written

A value is legible if its text is one line, without control characters, that is read as the value.
Numbers and texts are, as they are written here; and an array or an object is legible as soon as
what it holds is.  A reader passes over a legible value wherever it expects one, whatever is open
around it (`Makes`), so that nesting needs no bound.
-/
namespace SqlChecker.Json

/-- A reader expects a value. -/
def Reader.AwaitsValue (r : Reader) : Prop := r.expected = .value ∨ r.expected = .firstItem

/-- Of these tokens, a reader that expects a value makes this one. -/
def Makes (tokens : List Token) (v : Json) : Prop :=
  ∀ r : Reader, r.AwaitsValue →
    tokens.foldlM Reader.next? r = some ⟨.afterValue v, r.enclosures⟩

/-- The text of a value is one line that is read as the value. -/
structure Legible (v : Json) : Prop where
  exists_tokens : ∃ tokens, Splits v.render tokens ∧ Makes tokens v
  space_le : ∀ c ∈ v.render, ' ' ≤ c

variable {v : Json} {t : Token} {enclosures : List Enclosure}

/-! ### Readers -/

theorem Reader.next?_of_awaitsValue {r : Reader} (h : r.AwaitsValue) (ht : t ≠ .endArray) :
    r.next? t = beginValue? r.enclosures t := by
  obtain ⟨expected, enclosures⟩ := r
  rcases h with h | h
  · obtain rfl : expected = .value := h
    rfl
  -- An array without items may end here, which is the one token not to be expected of a value.
  · obtain rfl : expected = .firstItem := h
    cases t <;> first | rfl | exact absurd rfl ht

/-- A value that is a single token. -/
theorem makes_singleton (ht : t ≠ .endArray)
    (h : ∀ enclosures, Reader.beginValue? enclosures t = some ⟨.afterValue v, enclosures⟩) :
    Makes [t] v := by
  intro r hr
  rw [List.foldlM_cons, Reader.next?_of_awaitsValue hr ht, h]
  rfl

/-- **Behind an element of a sequence** come further elements, each behind a comma, and then its
end.  What is made of them is added to what has been made so far.  An array and an object differ in
the readers `before` and `after` an element, and in what is `made` at the end. -/
theorem foldlM_further {α : Type} {element : List Token → α → Prop} {close : Token}
    (before : List α → Reader) (after : List α → α → Reader) (made : List α → Reader)
    (hcomma : ∀ done x, (after done x).next? .comma = some (before (x :: done)))
    (helement : ∀ {ts x}, element ts x →
      ∀ done, ts.foldlM Reader.next? (before done) = some (after done x))
    (hclose : ∀ done x, (after done x).next? close = some (made (x :: done).reverse))
    {tokens : List (List Token)} {xs : List α} (h : List.Forall₂ element tokens xs)
    (done : List α) (x : α) :
    (tokens.flatMap (Token.comma :: ·) ++ [close]).foldlM Reader.next? (after done x) =
      some (made ((x :: done).reverse ++ xs)) := by
  -- Readers keep elements last first, so the further ones go in front of what is generalized here.
  induction h generalizing done x with
  | nil =>
    rw [List.flatMap_nil, List.nil_append, List.foldlM_cons, hclose, List.append_nil]
    rfl
  | @cons ts y tokens xs hy hxs ih =>
    rw [List.flatMap_cons, List.append_assoc, List.cons_append, List.foldlM_cons, hcomma,
      Option.bind_eq_bind, Option.bind_some, List.foldlM_append, helement hy, Option.bind_eq_bind,
      Option.bind_some, ih, List.reverse_cons, List.append_assoc, List.singleton_append]

/-! ### Arrays and objects -/

theorem makes_array {items : List Json} {tokens : List (List Token)}
    (h : List.Forall₂ Makes tokens items) :
    Makes (.beginArray :: (commaTokens tokens ++ [.endArray])) (.array items) := by
  intro r hr
  rw [List.foldlM_cons, Reader.next?_of_awaitsValue hr (by simp)]
  show List.foldlM Reader.next? ⟨.firstItem, .array [] :: r.enclosures⟩ _ = _
  cases h with
  | nil => rfl
  | @cons ts item tokens items hitem hitems =>
    rw [commaTokens, List.append_assoc, List.foldlM_append, hitem _ (.inr rfl),
      Option.bind_eq_bind, Option.bind_some]
    exact foldlM_further
      (fun done => ⟨.value, .array done :: r.enclosures⟩)
      (fun done v => ⟨.afterValue v, .array done :: r.enclosures⟩)
      (fun items => ⟨.afterValue (.array items), r.enclosures⟩)
      (fun _ _ => rfl) (fun hv _ => hv _ (.inl rfl)) (fun _ _ => rfl) hitems [] item

/-- These tokens are those of a member: its name, a colon and its value. -/
def MakesMember (tokens : List Token) (member : List Char × Json) : Prop :=
  ∃ valueTokens, tokens = .string member.1 :: .colon :: valueTokens ∧ Makes valueTokens member.2

/-- Of a member, a reader makes the value, and keeps the name. -/
theorem MakesMember.foldlM {ts : List Token} {member : List Char × Json} (h : MakesMember ts member)
    {r : Reader} {done : List (List Char × Json)}
    (hr : r.expected = .nextMember done ∨ r.expected = .firstMember ∧ done = []) :
    ts.foldlM Reader.next? r =
      some ⟨.afterValue member.2, .object done member.1 :: r.enclosures⟩ := by
  obtain ⟨valueTokens, rfl, hvalue⟩ := h
  have hname : r.next? (.string member.1) = some ⟨.colon done member.1, r.enclosures⟩ := by
    obtain ⟨expected, enclosures⟩ := r
    rcases hr with h | ⟨h, rfl⟩
    · obtain rfl : expected = .nextMember done := h
      rfl
    · obtain rfl : expected = .firstMember := h
      rfl
  have hcolon : Reader.next? ⟨.colon done member.1, r.enclosures⟩ .colon =
      some ⟨.value, .object done member.1 :: r.enclosures⟩ := rfl
  rw [List.foldlM_cons, hname, Option.bind_eq_bind, Option.bind_some, List.foldlM_cons, hcolon,
    Option.bind_eq_bind, Option.bind_some, hvalue _ (.inl rfl)]

theorem makes_object {members : List (List Char × Json)} {tokens : List (List Token)}
    (h : List.Forall₂ MakesMember tokens members) :
    Makes (.beginObject :: (commaTokens tokens ++ [.endObject])) (.object members) := by
  intro r hr
  rw [List.foldlM_cons, Reader.next?_of_awaitsValue hr (by simp)]
  show List.foldlM Reader.next? ⟨.firstMember, r.enclosures⟩ _ = _
  cases h with
  | nil => rfl
  | @cons ts member tokens members hmember hmembers =>
    rw [commaTokens, List.append_assoc, List.foldlM_append, hmember.foldlM (.inr ⟨rfl, rfl⟩),
      Option.bind_eq_bind, Option.bind_some]
    exact foldlM_further
      (fun done => ⟨.nextMember done, r.enclosures⟩)
      (fun done member => ⟨.afterValue member.2, .object done member.1 :: r.enclosures⟩)
      (fun members => ⟨.afterValue (.object members), r.enclosures⟩)
      (fun _ _ => rfl) (fun hm _ => hm.foldlM (.inl rfl)) (fun _ _ => rfl) hmembers [] member

/-! ### Legible values -/

/-- Texts are written without control characters. -/
theorem space_le_of_mem_escapeChar {c d : Char} (h : d ∈ escapeChar c) : ' ' ≤ d := by
  unfold escapeChar at h
  split at h
  · next e he =>
    have hletter : ' ' ≤ e := by
      unfold shortForm? at he
      split at he <;> first | (obtain rfl := Option.some.inj he; decide) | cases he
    rcases List.mem_cons.mp h with rfl | h
    · decide
    · rwa [List.mem_singleton.mp h]
  · split at h
    · next hc =>
      have hc : c.toNat < 32 := hc
      have hdigit : ∀ n < 16, ' ' ≤ hexDigit n := by decide
      simp only [List.mem_cons, List.not_mem_nil, or_false] at h
      rcases h with rfl | rfl | rfl | rfl | rfl | rfl
      · decide
      · decide
      · decide
      · decide
      · exact hdigit _ (by omega)
      · exact hdigit _ (by omega)
    · next hc =>
      rw [List.mem_singleton.mp h]
      exact Char.not_lt.mp hc

theorem space_le_of_mem_quoted (text : List Char) {rest : List Char} (h : ∀ c ∈ rest, ' ' ≤ c) :
    ∀ c ∈ '"' :: (escape text ++ '"' :: rest), ' ' ≤ c := by
  simp only [List.forall_mem_cons, List.forall_mem_append]
  refine ⟨by decide, fun c hc => ?_, by decide, h⟩
  obtain ⟨d, -, hd⟩ := List.mem_flatMap.mp hc
  exact space_le_of_mem_escapeChar hd

theorem space_le_of_mem_commaSeparated {texts : List (List Char)}
    (h : ∀ text ∈ texts, ∀ c ∈ text, ' ' ≤ c) : ∀ c ∈ commaSeparated texts, ' ' ≤ c := by
  intro c hc
  cases texts with
  | nil => cases hc
  | cons text texts =>
    obtain ⟨htext, htexts⟩ := List.forall_mem_cons.mp h
    rw [commaSeparated_cons] at hc
    rcases List.mem_append.mp hc with hc | hc
    · exact htext c hc
    · obtain ⟨next, hnext, hc⟩ := List.mem_flatMap.mp hc
      rcases List.mem_cons.mp hc with rfl | hc
      · decide
      · exact htexts next hnext c hc

theorem renderItems_eq (items : List Json) : renderItems items = items.map render := by
  induction items with
  | nil => rfl
  | cons item items ih => rw [renderItems, ih]; rfl

theorem renderMembers_eq (members : List (List Char × Json)) :
    renderMembers members =
      members.map fun member => '"' :: (member.1 ++ '"' :: ':' :: member.2.render) := by
  induction members with
  | nil => rfl
  | cons member members ih => rw [renderMembers, ih]; rfl

/-- The tokens of a member are those of its name, a colon and those of its value. -/
theorem exists_tokens_member {member : List Char × Json}
    (hname : ∃ name, member.1 = escape name)
    (hvalue : ∃ tokens, Splits member.2.render tokens ∧ Makes tokens member.2) :
    ∃ tokens, Splits ('"' :: (member.1 ++ '"' :: ':' :: member.2.render)) tokens ∧
      MakesMember tokens member := by
  obtain ⟨name, hname⟩ := hname
  obtain ⟨tokens, hsplits, hmakes⟩ := hvalue
  refine ⟨_, ?_, tokens, rfl, hmakes⟩
  have hmember := (Splits.string name).append (.cons_mark rfl hsplits)
    (endsNumber_cons_of_mark? (c := ':') rfl _)
  rw [hname]
  simpa using hmember

/-- The tokens of the texts of a list, if each has tokens of its own. -/
theorem exists_forall₂_tokens {α : Type} {text : α → List Char} {element : List Token → α → Prop}
    {xs : List α} (h : ∀ x ∈ xs, ∃ tokens, Splits (text x) tokens ∧ element tokens x) :
    ∃ tokens, List.Forall₂ Splits (xs.map text) tokens ∧ List.Forall₂ element tokens xs := by
  induction xs with
  | nil => exact ⟨[], .nil, .nil⟩
  | cons x xs ih =>
    obtain ⟨hx, hxs⟩ := List.forall_mem_cons.mp h
    obtain ⟨ts, hsplits, helement⟩ := hx
    obtain ⟨tokens, htexts, helements⟩ := ih hxs
    exact ⟨ts :: tokens, .cons hsplits htexts, .cons helement helements⟩

/-- A sequence between a mark that begins it and a mark that ends it. -/
theorem space_le_of_mem_enclosed {begins ends : Char} (hbegins : ' ' ≤ begins) (hends : ' ' ≤ ends)
    {texts : List (List Char)} (h : ∀ text ∈ texts, ∀ c ∈ text, ' ' ≤ c) :
    ∀ c ∈ begins :: (commaSeparated texts ++ [ends]), ' ' ≤ c := by
  simp only [List.forall_mem_cons, List.forall_mem_append, List.not_mem_nil, false_imp_iff,
    forall_true_iff, and_true]
  exact ⟨hbegins, space_le_of_mem_commaSeparated h, hends⟩

/-- Blanks are split into no tokens. -/
theorem tokens?_of_isBlank {blanks : List Char} (h : ∀ c ∈ blanks, Text.isBlank c = true) :
    tokens? blanks = some [] := by
  induction blanks with
  | nil => exact tokens?_nil
  | cons c blanks ih =>
    obtain ⟨hc, hblanks⟩ := List.forall_mem_cons.mp h
    rw [tokens?_cons_of_blank hc, ih hblanks]

theorem endsNumber_of_isBlank {blanks : List Char} (h : ∀ c ∈ blanks, Text.isBlank c = true) :
    EndsNumber blanks :=
  fun c hc => Text.eq_false_of_isBlank (p := continuesNumber) (by decide)
    (h c (List.mem_of_mem_head? hc))

namespace Legible

theorem bool (b : Bool) : Legible (bool b) := by
  refine ⟨⟨_, .bool b, makes_singleton (by simp) fun _ => rfl⟩, ?_⟩
  cases b <;> simp [render]

theorem ofNat (n : Nat) : Legible (ofNat n) := by
  refine ⟨⟨_, .decimal n, makes_singleton (by simp) fun _ => rfl⟩, fun c hc => ?_⟩
  have hdigit : c.isDigit = true := Text.isDigit_of_mem_decimal (n := n) hc
  have hcode : 48 ≤ c.toNat := (Char.isDigit_iff_toNat.mp hdigit).1
  exact (show 32 ≤ c.toNat by omega)

theorem ofText (text : String) : Legible (ofText text) := by
  refine ⟨⟨_, .string text.toList, makes_singleton (by simp) fun _ => rfl⟩, ?_⟩
  exact space_le_of_mem_quoted text.toList fun c hc => by simp at hc

theorem array {items : List Json} (h : ∀ item ∈ items, Legible item) : Legible (array items) := by
  obtain ⟨tokens, htexts, hitems⟩ := exists_forall₂_tokens fun item hi => (h item hi).exists_tokens
  refine ⟨⟨_, ?_, makes_array hitems⟩, ?_⟩
  · rw [render, renderItems_eq]
    exact .cons_mark rfl (.commaSeparated rfl htexts)
  · rw [render, renderItems_eq]
    refine space_le_of_mem_enclosed (by decide) (by decide) (List.forall_mem_map.mpr ?_)
    exact fun item hi => (h item hi).space_le

theorem object {members : List (List Char × Json)}
    (hnames : ∀ member ∈ members, ∃ name, member.1 = escape name)
    (hvalues : ∀ member ∈ members, Legible member.2) : Legible (object members) := by
  obtain ⟨tokens, htexts, hmembers⟩ := exists_forall₂_tokens fun member hm =>
    exists_tokens_member (hnames member hm) (hvalues member hm).exists_tokens
  refine ⟨⟨_, ?_, makes_object hmembers⟩, ?_⟩
  · rw [render, renderMembers_eq]
    exact .cons_mark rfl (.commaSeparated rfl htexts)
  · rw [render, renderMembers_eq]
    refine space_le_of_mem_enclosed (by decide) (by decide) (List.forall_mem_map.mpr ?_)
    rintro ⟨_, value⟩ hm
    obtain ⟨name, rfl⟩ := hnames _ hm
    refine space_le_of_mem_quoted name (List.forall_mem_cons.mpr ⟨by decide, ?_⟩)
    exact (hvalues _ hm).space_le

/-- **A legible value is read from its text**, with blanks behind it or without. -/
theorem parse?_render (h : Legible v) {blanks : List Char}
    (hblanks : ∀ c ∈ blanks, Text.isBlank c = true) : parse? (v.render ++ blanks) = some v := by
  obtain ⟨tokens, hsplits, hmakes⟩ := h.exists_tokens
  have htokens : tokens? (v.render ++ blanks) = some tokens := by
    rw [hsplits blanks (endsNumber_of_isBlank hblanks), tokens?_of_isBlank hblanks]
    simp
  rw [parse?, htokens, Option.bind_some, ofTokens?, hmakes .start (.inl rfl)]
  rfl

end Legible
end SqlChecker.Json
