import SqlChecker.Proofs.Json.Values
import SqlChecker.Report.Format

/-! # Reports are read as they were written

A report written as JSON is one line that holds one object, and a reader of JSON finds in it all
that was reported but the offsets, whatever characters the messages and the lines are made of.  The
reader below is written for JSON values, not for what the writer makes of a report: it goes by the
names of members, in any order, and undoes every escape.  So a report without its offsets can be
told from the line that it is written as, and offsets cannot.
-/
namespace SqlChecker
namespace Json

/-! ### Looking into a value -/

/-- The value of the member with this name, if there is just one. -/
def member? (name : String) : Json → Option Json
  | object members =>
    match members.filter fun m => unescape? m.1 == some name.toList with
    | [(_, value)] => some value
    | _ => none
  | _ => none

/-- The text that a string stands for. -/
def text? : Json → Option String
  | string body => (unescape? body).map String.ofList
  | _ => none

/-- The natural number that a number stands for. -/
def nat? : Json → Option Nat
  | number literal => Text.ofDecimal? literal
  | _ => none

/-- Which of the two truth values it is. -/
def bool? : Json → Option Bool
  | bool b => some b
  | _ => none

/-- The items of an array. -/
def items? : Json → Option (List Json)
  | array items => some items
  | _ => none

@[simp] theorem text?_ofText (text : String) : (ofText text).text? = some text := by
  rw [ofText, text?, unescape?_escape, Option.map_some, String.ofList_toList]

@[simp] theorem nat?_ofNat (n : Nat) : (ofNat n).nat? = some n := Text.ofDecimal?_decimal n

/-- A name is found where it was written. -/
theorem unescape?_name_beq (written name : String) (value : Json) :
    (unescape? (member written value).1 == some name.toList) = (written == name) := by
  rw [member, unescape?_escape, Option.some_beq_some, Bool.eq_iff_iff, beq_iff_eq, beq_iff_eq,
    String.toList_inj]

theorem filter_name_eq {members : List (String × Json)} (h : (members.map Prod.fst).Nodup)
    {name : String} {value : Json} (hm : (name, value) ∈ members) :
    members.filter (fun m => m.1 == name) = [(name, value)] := by
  induction members with
  | nil => cases hm
  | cons m members ih =>
    rw [List.map_cons, List.nodup_cons] at h
    rcases List.mem_cons.mp hm with rfl | hm
    · have hrest : ∀ m ∈ members, ¬(m.1 == name) = true := fun m hm hname =>
        h.1 (List.mem_map.mpr ⟨m, hm, beq_iff_eq.mp hname⟩)
      rw [List.filter_cons_of_pos (by simp), List.filter_eq_nil_iff.mpr hrest]
    · have hname : (m.1 == name) = false := beq_eq_false_iff_ne.mpr fun hname =>
        h.1 (List.mem_map.mpr ⟨_, hm, hname.symm⟩)
      simpa [List.filter_cons, hname] using ih h.2 hm

/-- In an object whose names are all different, a value is found by its name. -/
theorem member?_object (members : List (String × Json)) (h : (members.map Prod.fst).Nodup)
    {name : String} {value : Json} (hm : (name, value) ∈ members) :
    (object (members.map fun m => member m.1 m.2)).member? name = some value := by
  have hnamed : (fun m => unescape? m.1 == some name.toList) ∘ (fun m => member m.1 m.2) =
      fun m : String × Json => m.1 == name := funext fun m => unescape?_name_beq m.1 name m.2
  rw [member?, List.filter_map, hnamed, filter_name_eq h hm]
  rfl

end Json

/-! ### Reading a report -/

namespace Diagnostic

/-- What is left of a problem if its offset is forgotten. -/
def withoutOffset (d : Diagnostic) : Diagnostic := { d with offset? := none }

/-- The problem that a value is written for. -/
def ofJson? (v : Json) : Option Diagnostic := do
  let message ← (← v.member? "message").text?
  let line ← (← v.member? "line").nat?
  let word ← (← v.member? "word").nat?
  let lineContent ← (← v.member? "lineContent").text?
  return { message, line, word, lineContent }

/-- The offset is not written. -/
theorem toJson_withoutOffset (d : Diagnostic) : d.withoutOffset.toJson = d.toJson := rfl

theorem legible_toJson (d : Diagnostic) : d.toJson.Legible := by
  refine .object ?_ ?_
  · simp [Json.member]
  · simp [Json.member, Json.Legible.ofText, Json.Legible.ofNat]

theorem ofJson?_toJson (d : Diagnostic) : ofJson? d.toJson = some d.withoutOffset := by
  have hmember {name : String} {value : Json} : (name, value) ∈
      [("message", .ofText d.message), ("line", .ofNat d.line), ("word", .ofNat d.word),
        ("lineContent", .ofText d.lineContent)] → d.toJson.member? name = some value :=
    Json.member?_object _ (by simp)
  have hmessage : d.toJson.member? "message" = some (.ofText d.message) := hmember (by simp)
  have hline : d.toJson.member? "line" = some (.ofNat d.line) := hmember (by simp)
  have hword : d.toJson.member? "word" = some (.ofNat d.word) := hmember (by simp)
  have hlineContent : d.toJson.member? "lineContent" = some (.ofText d.lineContent) :=
    hmember (by simp)
  simp [ofJson?, hmessage, hline, hword, hlineContent, withoutOffset]

end Diagnostic

namespace Report

/-- What is left of a report if its offsets are forgotten. -/
def withoutOffsets (r : Report) : Report := ⟨r.errors.map Diagnostic.withoutOffset⟩

/-- Whether a text is said to be valid, and the problems that are reported of it. -/
def ofJson? (v : Json) : Option (Bool × List Diagnostic) := do
  let isValid ← (← v.member? "isValid").bool?
  let errors ← (← (← v.member? "errors").items?).mapM Diagnostic.ofJson?
  return (isValid, errors)

/-- What is reported by a line of JSON. -/
def read? (text : List Char) : Option (Bool × List Diagnostic) := (Json.parse? text).bind ofJson?

theorem legible_toJson (r : Report) : r.toJson.Legible := by
  refine .object ?_ ?_
  · simp [Json.member]
  · have herrors : Json.Legible (.array (r.errors.map Diagnostic.toJson)) :=
      .array (List.forall_mem_map.mpr fun d _ => d.legible_toJson)
    simp [Json.member, Json.Legible.bool, herrors]

theorem ofJson?_toJson (r : Report) :
    ofJson? r.toJson = some (r.isValid, r.errors.map Diagnostic.withoutOffset) := by
  have herrors : (r.errors.map Diagnostic.toJson).mapM Diagnostic.ofJson? =
      some (r.errors.map Diagnostic.withoutOffset) := by
    induction r.errors with
    | nil => rfl
    | cons d errors ih => simp [d.ofJson?_toJson, ih]
  have hmember {name : String} {value : Json} : (name, value) ∈
      [("isValid", .bool r.isValid), ("errors", .array (r.errors.map Diagnostic.toJson))] →
      r.toJson.member? name = some value :=
    Json.member?_object _ (by simp)
  have hisValid : r.toJson.member? "isValid" = some (.bool r.isValid) := hmember (by simp)
  have hitems : r.toJson.member? "errors" = some (.array (r.errors.map Diagnostic.toJson)) :=
    hmember (by simp)
  simp [ofJson?, hisValid, hitems, Json.bool?, Json.items?, herrors]

theorem toJson_withoutOffsets (r : Report) : r.withoutOffsets.toJson = r.toJson := by
  simp [toJson, withoutOffsets, isValid, Function.comp_def, Diagnostic.toJson_withoutOffset]

theorem parse?_jsonLine (r : Report) : Json.parse? r.jsonLine = some r.toJson :=
  r.legible_toJson.parse?_render (List.forall_mem_singleton.mpr rfl)

theorem read?_jsonLine (r : Report) :
    read? r.jsonLine = some (r.isValid, r.errors.map Diagnostic.withoutOffset) := by
  rw [read?, parse?_jsonLine, Option.bind_some, ofJson?_toJson]

/-- Two lines of JSON are equal if and only if the reports are, but for their offsets. -/
theorem jsonLine_inj {r s : Report} :
    r.jsonLine = s.jsonLine ↔ r.withoutOffsets = s.withoutOffsets := by
  constructor
  · intro h
    have hread := congrArg read? h
    rw [read?_jsonLine, read?_jsonLine] at hread
    exact congrArg Report.mk (Prod.mk.inj (Option.some.inj hread)).2
  · intro h
    rw [jsonLine, jsonLine, ← r.toJson_withoutOffsets, h, s.toJson_withoutOffsets]

end Report

/-- **JSON leaves out nothing but offsets.**  Whatever texts and numbers a report holds, it is
printed as one object on one line, and no character of this line stands below the space.  A reader
finds in it whether the text is valid, which it is just if there is no problem, and every problem in
order with its message, its place and its line.  So two reports are printed alike if and only if
they differ in offsets at most. -/
theorem render_json_reads (r : Report) (source : List Char) :
    (∃ line, r.render source .json = line ++ ['\n'] ∧ ∀ c ∈ line, ' ' ≤ c) ∧
    (∃ members, Json.parse? (r.render source .json) = some (.object members)) ∧
    Report.read? (r.render source .json) =
      some (r.isValid, r.errors.map Diagnostic.withoutOffset) ∧
    (r.isValid = true ↔ r.errors = []) ∧
    ∀ (s : Report) (source' : List Char),
      r.render source .json = s.render source' .json ↔ r.withoutOffsets = s.withoutOffsets := by
  refine ⟨⟨_, rfl, r.legible_toJson.space_le⟩, ⟨_, r.parse?_jsonLine⟩, r.read?_jsonLine, ?_, ?_⟩
  · exact List.isEmpty_iff
  · intro s _
    exact Report.jsonLine_inj

end SqlChecker
