import SqlChecker.Command.Session
import SqlChecker.Proofs.Command.Options

/-! # Sessions and where their text comes from

A text may be given to a session in an argument, in a file or on standard input.  The session does
not tell these apart: what it prints is the report on the text in the format asked for, and its code
is that of the report, whatever else is asked (`Session.run_agrees`).  If there is no text to be
read, nothing is printed.  Of the reader of options nothing is taken for granted but that it is
faithful, and of files and standard input nothing at all.
-/
namespace SqlChecker

/-- What is printed for a valid text. -/
def Format.validText : Format → String
  | .json => "\x7b\"isValid\":true,\"errors\":[]\x7d\n"
  | .text => "OK\n"

/-! ### Reports -/

namespace Report

variable {r : Report} {source : List Char}

theorem jsonLine_of_isValid (h : r.isValid = true) :
    r.jsonLine = Format.json.validText.toList := by
  obtain ⟨errors⟩ := r
  obtain rfl : errors = [] := List.isEmpty_iff.mp h
  decide

theorem jsonLine_of_not_isValid (h : r.isValid = false) :
    ∃ rest, r.jsonLine = "\x7b\"isValid\":false".toList ++ rest := by
  obtain ⟨errors⟩ := r
  cases errors with
  | nil => cases h
  | cons d errors => exact ⟨_, rfl⟩

theorem plain_of_isValid (h : r.isValid = true) :
    r.plain source = Format.text.validText.toList := by
  rw [plain, plainLines, if_pos h]
  decide

theorem plain_of_not_isValid (h : r.isValid = false) :
    ∃ rest, r.plain source = "line ".toList ++ rest := by
  obtain ⟨errors⟩ := r
  cases errors with
  | nil => cases h
  | cons d errors =>
    rw [plain, plainLines, h, if_neg Bool.false_ne_true, List.flatMap_cons,
      Diagnostic.plainLines, List.cons_append, List.flatMap_cons, Diagnostic.headline]
    simp only [String.toList_append, List.append_assoc]
    exact ⟨_, rfl⟩

/-- **The text printed for a valid text** is printed for no other. -/
theorem render_eq_validText_iff (r : Report) (source : List Char) (format : Format) :
    String.ofList (r.render source format) = format.validText ↔ r.isValid = true := by
  constructor
  · intro h
    have hrender : r.render source format = format.validText.toList := by
      rw [← h, String.toList_ofList]
    cases hvalid : r.isValid with
    | true => rfl
    | false =>
      cases format with
      | json =>
        obtain ⟨rest, hrest⟩ := jsonLine_of_not_isValid hvalid
        have hchar : some 't' = some 'f' := congrArg (·[11]?) (hrender.symm.trans hrest)
        exact absurd hchar (by decide)
      | text =>
        obtain ⟨rest, hrest⟩ : ∃ rest, r.plain source = "line ".toList ++ rest :=
          plain_of_not_isValid hvalid
        have hchar : some 'O' = some 'l' := congrArg (·[0]?) (hrender.symm.trans hrest)
        exact absurd hchar (by decide)
  · intro h
    have hrender : r.render source format = format.validText.toList := by
      cases format with
      | json => exact jsonLine_of_isValid h
      | text => exact plain_of_isValid h
    rw [hrender, String.ofList_toList]

end Report

/-! ### Inputs -/

/-- The ways to name an input: by an option, by the path of a file, by a hyphen or by nothing. -/
inductive Input.IsNamedBy : Input → Arguments → Prop where
  | inline {a : Arguments} {text : String} (hsql : a.sql? = some text) (hfile : a.file? = none) :
      IsNamedBy (inline text) a
  | file {a : Arguments} {path : String} (hsql : a.sql? = none) (hfile : a.file? = some path)
      (hpath : ¬ IsHyphen path.toList) : IsNamedBy (file path) a
  | standard {a : Arguments} (hsql : a.sql? = none) (hfile : a.file? = none) :
      IsNamedBy standard a
  | hyphen {a : Arguments} {path : String} (hsql : a.sql? = none) (hfile : a.file? = some path)
      (hpath : IsHyphen path.toList) : IsNamedBy standard a

theorem Input.IsNamedBy.namesOne {input : Input} {a : Arguments} (h : input.IsNamedBy a) :
    a.NamesOne := by
  cases h with
  | inline hsql hfile => exact .inr hfile
  | file hsql | standard hsql | hyphen hsql => exact .inl hsql

/-- The input that is named is chosen. -/
theorem Input.IsNamedBy.choose_eq {input : Input} {a : Arguments} (h : input.IsNamedBy a) :
    Input.choose a.sql? a.file? = input := by
  cases h with
  | inline hsql hfile => rw [hsql, choose]
  | file hsql hfile hpath =>
    rw [hsql, hfile, choose, if_neg (mt isHyphenPath_iff.mp hpath)]
  | standard hsql hfile => rw [hsql, hfile, choose]
  | hyphen hsql hfile hpath => rw [hsql, hfile, choose, if_pos (isHyphenPath_iff.mpr hpath)]

/-- What was found is no text: a fault, or bytes that encode none. -/
def IsNoText (found : Except ReadFault ByteArray) : Prop := ∀ text : String, found ≠ .ok text.toUTF8

theorem decodeInput_toUTF8 (path? : Option String) (text : String) :
    decodeInput path? (.ok text.toUTF8) = .ok text := by
  have h : String.fromUTF8? text.toUTF8 = some text := dif_pos text.isValidUTF8
  simp only [decodeInput, h]

theorem decodeInput_eq_error {found : Except ReadFault ByteArray} (h : IsNoText found)
    (path? : Option String) : ∃ e, decodeInput path? found = .error e := by
  cases found with
  | error fault => exact ⟨_, rfl⟩
  | ok bytes =>
    have hnone : String.fromUTF8? bytes = none :=
      dif_neg fun hvalid => h (.fromUTF8 bytes hvalid) rfl
    exact ⟨⟨path?, .notText⟩, by simp only [decodeInput, hnone]⟩

namespace Session

variable {m : Type → Type} [Monad m] {around : Surroundings m} {text : String} {input : Input}

/-- The input holds this text. -/
def Surroundings.Holds (around : Surroundings m) (text : String) : Input → Prop
  | .inline given => given = text
  | .file path => around.fileAt path = pure (.ok text.toUTF8)
  | .standard => around.standardInput = pure (.ok text.toUTF8)

/-- The input can be looked for, but holds no text. -/
def Surroundings.HoldsNone (around : Surroundings m) : Input → Prop
  | .inline _ => False
  | .file path => ∃ found, around.fileAt path = pure found ∧ IsNoText found
  | .standard => ∃ found, around.standardInput = pure found ∧ IsNoText found

variable [LawfulMonad m]

theorem read_of_holds (h : around.Holds text input) : around.read input = pure (.ok text) := by
  cases input with
  | inline given => exact congrArg (pure ∘ Except.ok) h
  | file path =>
    replace h : around.fileAt path = pure (.ok text.toUTF8) := h
    rw [Surroundings.read, h, map_pure, decodeInput_toUTF8]
  | standard =>
    replace h : around.standardInput = pure (.ok text.toUTF8) := h
    rw [Surroundings.read, h, map_pure, decodeInput_toUTF8]

theorem read_of_holdsNone (h : around.HoldsNone input) :
    ∃ e, around.read input = pure (.error e) := by
  cases input with
  | inline given => exact h.elim
  | file path =>
    obtain ⟨found, h, hnone⟩ := h
    obtain ⟨e, he⟩ := decodeInput_eq_error hnone (some path)
    exact ⟨e, by rw [Surroundings.read, h, map_pure, he]⟩
  | standard =>
    obtain ⟨found, h, hnone⟩ := h
    obtain ⟨e, he⟩ := decodeInput_eq_error hnone none
    exact ⟨e, by rw [Surroundings.read, h, map_pure, he]⟩

variable {parse : OptionParser} {arguments : List String} {a : Arguments}
variable {preset? : Option String} {limit? : Option Nat}

/-- A session reads the input that its arguments name and nothing else, as they ask. -/
theorem run_eq_map_read (hparse : parse.IsFaithful) (hwritten : a.IsWritten arguments)
    (hnamed : input.IsNamedBy a) (hpreset : around.limit? = pure preset?)
    (hlimit : a.LimitIs preset? limit?) :
    run parse around arguments =
      ofRead ⟨a.sql?, a.file?, a.format?.getD .json, limit?, a.verbose⟩ <$> around.read input := by
  have hoptions := hparse.parse_eq_ok hwritten hnamed.namesOne hlimit
  rw [run, hpreset, pure_bind, hoptions]
  simp only [Options.input, hnamed.choose_eq, bind_pure_comp]

/-- **A session goes by the text alone.**  Let options ask for a format, a limit and whether to tell
what is done, in any of the ways to write them, and let an input be named among them, by an option,
as a file or as standard input.  If it holds a text, then the report on that text under the limit is
printed in the format, and the code is zero if the text is valid and one if it is not; so what is
printed for a valid text is printed just if the code is zero.  If the input holds no text, nothing
is printed and the code is two. -/
theorem run_agrees (hparse : parse.IsFaithful) (hwritten : a.IsWritten arguments)
    (hnamed : input.IsNamedBy a) (hpreset : around.limit? = pure preset?)
    (hlimit : a.LimitIs preset? limit?) :
    let format := a.format?.getD .json
    (∀ text : String, around.Holds text input →
      ∃ session, run parse around arguments = pure session ∧
        let report := validate ⟨limit?⟩ text.toList
        session.code = (if report.isValid then 0 else 1) ∧
        session.printed = String.ofList (report.render text.toList format) ∧
        (session.printed = format.validText ↔ session.code = 0)) ∧
    (around.HoldsNone input →
      ∃ session, run parse around arguments = pure session ∧
        session.code = 2 ∧ session.printed = "") := by
  intro format
  have hrun := run_eq_map_read hparse hwritten hnamed hpreset hlimit
  constructor
  · intro text hholds
    rw [read_of_holds hholds, map_pure] at hrun
    refine ⟨_, hrun, rfl, rfl, ?_⟩
    refine (Report.render_eq_validText_iff _ text.toList format).trans ?_
    show (validate ⟨limit?⟩ text.toList).isValid = true ↔
      (if (validate ⟨limit?⟩ text.toList).isValid then 0 else 1) = 0
    cases (validate ⟨limit?⟩ text.toList).isValid <;> decide
  · intro hnone
    obtain ⟨e, he⟩ := read_of_holdsNone hnone
    rw [he, map_pure] at hrun
    exact ⟨_, hrun, rfl, rfl⟩

/-- A valid text in a file behind a double hyphen, under a limit of the environment that it just
keeps, and standard input that is a directory. -/
theorem run_validFile :
    let around : Surroundings Id := {
      limit? := some "9"
      fileAt path := if path = "/sql/-a" then .ok "SELECT 1;".toUTF8 else .error .notFound
      standardInput := Except.error .isADirectory }
    let fromFile : Arguments := { file? := some "/sql/-a", format? := some .text, verbose := true }
    let fromInput : Arguments := { file? := some "-", format? := some .text, verbose := true }
    Options.parse.IsFaithful ∧ around.limit? = pure (some "9") ∧
    fromFile.IsWritten ["-v", "--format=text", "--", "/sql/-a"] ∧
    (Input.file "/sql/-a").IsNamedBy fromFile ∧ fromFile.LimitIs (some "9") (some 9) ∧
    around.Holds "SELECT 1;" (.file "/sql/-a") ∧
    (∃ session, run Options.parse around ["-v", "--format=text", "--", "/sql/-a"] = pure session ∧
      session.code = 0 ∧ session.printed = "OK\n") ∧
    fromInput.IsWritten ["-v", "--format=text", "-"] ∧
    Input.standard.IsNamedBy fromInput ∧ fromInput.LimitIs (some "9") (some 9) ∧
    around.HoldsNone .standard ∧
    ∃ session, run Options.parse around ["-v", "--format=text", "-"] = pure session ∧
      session.code = 2 ∧ session.printed = "" := by
  intro around fromFile fromInput
  have hfaithful := Options.isFaithful_parse
  have hverbose : Arguments.IsWrittenOpen { verbose := true } ["-v"] :=
    .more .nothing (c := .verbose) rfl .letterVerbose
  have htext : (Choice.format .text).IsValue .format "text" := .format rfl
  have hopen : Arguments.IsWrittenOpen { format? := some .text, verbose := true }
      ["-v", "--format=text"] :=
    .more hverbose (c := .format .text) rfl (.named htext)
  have hwrittenFile : fromFile.IsWritten ["-v", "--format=text", "--", "/sql/-a"] :=
    .file hopen rfl (by decide)
  have hwrittenInput : fromInput.IsWritten ["-v", "--format=text", "-"] :=
    .options (.more hopen (c := .file "-") rfl (.file rfl (by decide)))
  have hnamedFile : (Input.file "/sql/-a").IsNamedBy fromFile :=
    .file rfl rfl fun h => absurd (isHyphenPath_iff.mpr h) (by decide)
  have hnamedInput : Input.standard.IsNamedBy fromInput :=
    .hyphen rfl rfl (isHyphenPath_iff.mp (by decide))
  have hlimitFile : fromFile.LimitIs (some "9") (some 9) := .preset rfl rfl
  have hlimitInput : fromInput.LimitIs (some "9") (some 9) := .preset rfl rfl
  have hholds : around.Holds "SELECT 1;" (.file "/sql/-a") := by
    show around.fileAt "/sql/-a" = _
    rfl
  have hnone : around.HoldsNone .standard := ⟨.error .isADirectory, rfl, fun text h => by cases h⟩
  obtain ⟨session, hrun, hcode, -, hprinted⟩ :=
    (run_agrees hfaithful hwrittenFile hnamedFile rfl hlimitFile).1 "SELECT 1;" hholds
  have hvalid : (validate ⟨some 9⟩ "SELECT 1;".toList).isValid = true := by decide +kernel
  rw [hvalid] at hcode
  exact ⟨hfaithful, rfl, hwrittenFile, hnamedFile, hlimitFile, hholds,
    ⟨session, hrun, hcode, hprinted.mpr hcode⟩, hwrittenInput, hnamedInput, hlimitInput, hnone,
    (run_agrees hfaithful hwrittenInput hnamedInput rfl hlimitInput).2 hnone⟩

end Session
end SqlChecker
