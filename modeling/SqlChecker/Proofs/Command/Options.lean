import SqlChecker.Command.Options

/-! # Readers of options

How options may be written: one after the other, in any order and each at most once, with values
attached to them or behind them, and with a file among them or behind a double hyphen.  A reader of
options is faithful if it finds what is written in these ways (`OptionParser.IsFaithful`).  The
reader of the command is (`Options.isFaithful_parse`).
-/
namespace SqlChecker

/-- A step succeeds together with what follows it. -/
theorem bind_eq_ok_iff {ε α β : Type} {x : Except ε α} {f : α → Except ε β} {b : β} :
    (x >>= f) = .ok b ↔ ∃ a, x = .ok a ∧ f a = .ok b := by
  constructor
  · intro h
    cases x with
    | error e => cases h
    | ok a => exact ⟨a, rfl, h⟩
  · rintro ⟨a, rfl, h⟩
    exact h

/-! ### Ways to write options -/

/-- One thing that arguments can ask for. -/
inductive Choice where
  | sql (text : String)
  | file (path : String)
  | format (f : Format)
  | maxBytes (count : Nat)
  | verbose

namespace Choice

/-- What is asked for with this as well. -/
def addTo : Choice → Arguments → Arguments
  | sql text, a => { a with sql? := some text }
  | file path, a => { a with file? := some path }
  | format f, a => { a with format? := some f }
  | maxBytes count, a => { a with maxBytes? := some count }
  | verbose, a => { a with verbose := true }

/-- Nothing of this kind is asked for. -/
def IsNewTo : Choice → Arguments → Prop
  | sql _, a => a.sql? = none
  | file _, a => a.file? = none
  | format _, a => a.format? = none
  | maxBytes _, a => a.maxBytes? = none
  | verbose, a => a.verbose = false

/-- The choice that an option makes with a value. -/
inductive IsValue : Choice → ValueOption → String → Prop where
  | sql (text : String) : IsValue (sql text) .sql text
  | format {name : String} {f : Format} (h : Format.ofName? name = some f) :
      IsValue (format f) .format name
  | maxBytes {numeral : String} {count : Nat}
      (h : Arguments.byteCount? numeral.toList = some count) :
      IsValue (maxBytes count) .maxBytes numeral

/-- The arguments that make a choice.  A value that is attached to its option may be any text; one
behind it must not look like an option, and neither must the name of a file. -/
inductive IsWritten : Choice → List String → Prop where
  | named {c : Choice} {o : ValueOption} {value : String} (h : c.IsValue o value) :
      IsWritten c ["--" ++ (Switch.value o).name ++ "=" ++ value]
  | namedBefore {c : Choice} {o : ValueOption} {value : String} (h : c.IsValue o value)
      (hplain : Arguments.isPlain value.toList = true) :
      IsWritten c ["--" ++ (Switch.value o).name, value]
  | lettered {c : Choice} {o : ValueOption} {value : String} {l : Char}
      (hl : (Switch.value o).letter? = some l) (h : c.IsValue o value) :
      IsWritten c [String.ofList ('-' :: l :: '=' :: value.toList)]
  | letteredBefore {c : Choice} {o : ValueOption} {value : String} {l : Char}
      (hl : (Switch.value o).letter? = some l) (h : c.IsValue o value)
      (hplain : Arguments.isPlain value.toList = true) :
      IsWritten c [String.ofList ['-', l], value]
  | joined {c : Choice} {o : ValueOption} {l first : Char} {rest : List Char}
      (hl : (Switch.value o).letter? = some l) (h : c.IsValue o (String.ofList (first :: rest)))
      (hfirst : first ≠ '=') : IsWritten c [String.ofList ('-' :: l :: first :: rest)]
  | verbose : IsWritten verbose ["--verbose"]
  | letterVerbose : IsWritten verbose ["-v"]
  | file {path : String} (hplain : Arguments.isPlain path.toList = true) (hne : path ≠ "") :
      IsWritten (file path) [path]

end Choice

namespace Arguments

/-- The arguments make these choices, one after the other and each at most once. -/
inductive IsWrittenOpen : Arguments → List String → Prop where
  | nothing : IsWrittenOpen {} []
  | more {a : Arguments} {before piece : List String} {c : Choice} (h : a.IsWrittenOpen before)
      (hnew : c.IsNewTo a) (hc : c.IsWritten piece) :
      IsWrittenOpen (c.addTo a) (before ++ piece)

/-- The arguments ask for this.  Behind a double hyphen there may be a file of any name. -/
inductive IsWritten : Arguments → List String → Prop where
  | options {a : Arguments} {arguments : List String} (h : a.IsWrittenOpen arguments) :
      IsWritten a arguments
  | dashes {a : Arguments} {before : List String} (h : a.IsWrittenOpen before) :
      IsWritten a (before ++ ["--"])
  | file {a : Arguments} {before : List String} {path : String} (h : a.IsWrittenOpen before)
      (hnew : (Choice.file path).IsNewTo a) (hne : path ≠ "") :
      IsWritten ((Choice.file path).addTo a) (before ++ ["--", path])

/-- The arguments name one input at most. -/
def NamesOne (a : Arguments) : Prop := a.sql? = none ∨ a.file? = none

/-- The limit that is meant where the environment sets one as well, or not: that of the environment
counts only without an option. -/
inductive LimitIs (a : Arguments) : Option String → Option Nat → Prop where
  | given {count : Nat} (h : a.maxBytes? = some count) (preset? : Option String) :
      LimitIs a preset? (some count)
  | preset {numeral : String} {count : Nat} (h : a.maxBytes? = none)
      (hcount : byteCount? numeral.toList = some count) : LimitIs a (some numeral) (some count)
  | unlimited (h : a.maxBytes? = none) : LimitIs a none none

end Arguments

/-- **What is relied on of a reader of options**: it takes arguments apart as they are written, each
value unchanged, and takes JSON for the format if there is none. -/
structure OptionParser.IsFaithful (parse : OptionParser) : Prop where
  parse_eq_ok : ∀ {a : Arguments} {arguments : List String} {preset? : Option String}
    {limit? : Option Nat}, a.IsWritten arguments → a.NamesOne → a.LimitIs preset? limit? →
    parse arguments preset? = .ok ⟨a.sql?, a.file?, a.format?.getD .json, limit?, a.verbose⟩

/-! ### What is read of one argument -/

namespace Arguments

variable {a a' : Arguments} {o : ValueOption} {o? : Option ValueOption} {l : Char}
variable {value : List Char} {filesOnly : Bool} {c : Choice}

theorem setValue_eq_ok {text : String} (h : c.IsValue o text) (hnew : c.IsNewTo a) :
    a.setValue o text.toList = .ok (c.addTo a) := by
  cases h with
  | sql text =>
    replace hnew : a.sql? = none := hnew
    simp [setValue, hnew, Choice.addTo]
  | format h =>
    replace hnew : a.format? = none := hnew
    simp [setValue, h, hnew, Choice.addTo]
  | maxBytes h =>
    replace hnew : a.maxBytes? = none := hnew
    simp [setValue, h, hnew, Choice.addTo]

theorem setFlag_verbose (hnew : Choice.verbose.IsNewTo a) :
    a.setFlag .verbose = .ok (Choice.verbose.addTo a) := by
  replace hnew : a.verbose = false := hnew
  simp [setFlag, hnew, Choice.addTo]

theorem setFile_eq_ok {path : String} (hne : path ≠ "") (hnew : (Choice.file path).IsNewTo a) :
    a.setFile path.toList = .ok ((Choice.file path).addTo a) := by
  replace hnew : a.file? = none := hnew
  have hnil : path.toList ≠ [] := fun h => hne (String.toList_injective h)
  simp [setFile, hnil, hnew, Choice.addTo]

/-- A value is attached to the name of its option as it is, whatever it holds. -/
theorem readName_attached (h : a.setValue o value = .ok a') :
    a.readName ((Switch.value o).name.toList ++ '=' :: value) = .ok (a', none) := by
  have hname : Switch.ofName? (Switch.value o).name.toList = some (.value o) := by
    cases o <;> decide
  have htake : ((Switch.value o).name.toList ++ '=' :: value).takeWhile (· != '=') =
      (Switch.value o).name.toList := by
    cases o <;> rfl
  have hdrop : ((Switch.value o).name.toList ++ '=' :: value).dropWhile (· != '=') =
      '=' :: value := by
    cases o <;> rfl
  rw [readName, htake, hdrop, hname]
  exact bind_eq_ok_iff.mpr ⟨a', h, rfl⟩

theorem readName_eq_pending (a : Arguments) (o : ValueOption) :
    a.readName (Switch.value o).name.toList = .ok (a, some o) := by
  cases o <;> rfl

theorem ofLetter?_eq_some (hl : (Switch.value o).letter? = some l) :
    Switch.ofLetter? l = some (.value o) := by
  cases o <;> cases hl <;> decide

theorem readLetters_attached (hl : (Switch.value o).letter? = some l)
    (h : a.setValue o value = .ok a') : a.readLetters (l :: '=' :: value) = .ok (a', none) := by
  rw [readLetters, ofLetter?_eq_some hl]
  exact bind_eq_ok_iff.mpr ⟨a', h, rfl⟩

theorem readLetters_joined {first : Char} {rest : List Char}
    (hl : (Switch.value o).letter? = some l) (hfirst : first ≠ '=')
    (h : a.setValue o (first :: rest) = .ok a') :
    a.readLetters (l :: first :: rest) = .ok (a', none) := by
  simp only [readLetters, ofLetter?_eq_some hl]
  split
  · next hrest => cases hrest
  · next hrest => exact absurd (List.cons.inj hrest).1 hfirst
  · exact bind_eq_ok_iff.mpr ⟨a', h, rfl⟩

theorem readLetters_eq_pending (a : Arguments) (hl : (Switch.value o).letter? = some l) :
    a.readLetters [l] = .ok (a, some o) := by
  rw [readLetters, ofLetter?_eq_some hl]

namespace Progress

theorem read_value (hplain : isPlain value = true) (h : a.setValue o value = .ok a') :
    read ⟨a, some o, filesOnly⟩ value = .ok ⟨a', none, filesOnly⟩ :=
  (if_pos hplain).trans (bind_eq_ok_iff.mpr ⟨a', h, rfl⟩)

theorem read_file {path : List Char} (hfile : filesOnly = true ∨ isPlain path = true)
    (h : a.setFile path = .ok a') :
    read ⟨a, none, filesOnly⟩ path = .ok ⟨a', none, filesOnly⟩ :=
  (if_pos hfile).trans (bind_eq_ok_iff.mpr ⟨a', h, rfl⟩)

theorem read_name {body : List Char} (hbody : body ≠ []) (h : a.readName body = .ok (a', o?)) :
    read ⟨a, none, false⟩ ('-' :: '-' :: body) = .ok ⟨a', o?, false⟩ := by
  obtain ⟨c, body, rfl⟩ := List.exists_cons_of_ne_nil hbody
  exact bind_eq_ok_iff.mpr ⟨(a', o?), h, rfl⟩

theorem read_letters {rest : List Char} (hl : l ≠ '-')
    (h : a.readLetters (l :: rest) = .ok (a', o?)) :
    read ⟨a, none, false⟩ ('-' :: l :: rest) = .ok ⟨a', o?, false⟩ := by
  simp only [read, isPlain, Bool.false_eq_true, or_self, if_false, List.tail_cons]
  split
  · next htail => exact absurd (List.cons.inj htail).1 hl
  · next htail => exact absurd (List.cons.inj htail).1 hl
  · exact bind_eq_ok_iff.mpr ⟨(a', o?), h, rfl⟩

/-! ### What is read of all arguments -/

/-- Reads arguments one after the other. -/
def readAll (p : Progress) (arguments : List String) : Except Interruption Progress :=
  arguments.foldlM (fun p argument => p.read argument.toList) p

theorem readAll_append (p : Progress) (before after : List String) :
    p.readAll (before ++ after) = p.readAll before >>= (·.readAll after) :=
  List.foldlM_append

variable {p q r : Progress} {s t : String}

theorem readAll_one (h : p.read s.toList = .ok q) : p.readAll [s] = .ok q :=
  bind_eq_ok_iff.mpr ⟨q, h, rfl⟩

theorem readAll_two (h : p.read s.toList = .ok q) (h' : q.read t.toList = .ok r) :
    p.readAll [s, t] = .ok r :=
  bind_eq_ok_iff.mpr ⟨q, h, readAll_one h'⟩

theorem letter_ne_hyphen (hl : (Switch.value o).letter? = some l) : l ≠ '-' := by
  cases o <;> cases hl <;> decide

/-- **A choice is read**, in each of the ways to write it. -/
theorem readAll_of_isWritten {piece : List String} (hc : c.IsWritten piece)
    (hnew : c.IsNewTo a) : readAll ⟨a, none, false⟩ piece = .ok ⟨c.addTo a, none, false⟩ := by
  cases hc with
  | @named _ o value h =>
    refine readAll_one ?_
    have hread := readName_attached (setValue_eq_ok h hnew)
    have hbody : (Switch.value o).name.toList ++ '=' :: value.toList ≠ [] := by simp
    simpa using read_name hbody hread
  | @namedBefore _ o value h hplain =>
    have hbody : (Switch.value o).name.toList ≠ [] := by cases o <;> decide
    have hname := read_name hbody (readName_eq_pending a o)
    exact readAll_two (by simpa using hname) (read_value hplain (setValue_eq_ok h hnew))
  | lettered hl h =>
    refine readAll_one ?_
    rw [String.toList_ofList]
    exact read_letters (letter_ne_hyphen hl) (readLetters_attached hl (setValue_eq_ok h hnew))
  | letteredBefore hl h hplain =>
    refine readAll_two ?_ (read_value hplain (setValue_eq_ok h hnew))
    rw [String.toList_ofList]
    exact read_letters (letter_ne_hyphen hl) (readLetters_eq_pending a hl)
  | joined hl h hfirst =>
    refine readAll_one ?_
    have hset := setValue_eq_ok h hnew
    rw [String.toList_ofList] at hset ⊢
    exact read_letters (letter_ne_hyphen hl) (readLetters_joined hl hfirst hset)
  | verbose =>
    have hread : a.readName "verbose".toList = .ok (Choice.verbose.addTo a, none) :=
      bind_eq_ok_iff.mpr ⟨_, setFlag_verbose hnew, rfl⟩
    exact readAll_one (read_name (by decide) hread)
  | letterVerbose =>
    have hread : a.readLetters ['v'] = .ok (Choice.verbose.addTo a, none) :=
      bind_eq_ok_iff.mpr ⟨_, setFlag_verbose hnew, rfl⟩
    exact readAll_one (read_letters (by decide) hread)
  | file hplain hne => exact readAll_one (read_file (.inr hplain) (setFile_eq_ok hne hnew))

/-- **Choices are read one after the other.**  The induction is on how they are written. -/
theorem readAll_of_isWrittenOpen {arguments : List String} (h : a.IsWrittenOpen arguments) :
    readAll {} arguments = .ok ⟨a, none, false⟩ := by
  induction h with
  | nothing => rfl
  | more h hnew hc ih =>
    rw [readAll_append, ih]
    exact readAll_of_isWritten hc hnew

end Progress

theorem parse_eq_ok {arguments : List String}
    (h : Progress.readAll {} arguments = .ok ⟨a, none, filesOnly⟩) (hone : a.NamesOne) :
    parse arguments = .ok a := by
  refine bind_eq_ok_iff.mpr ⟨_, h, if_neg ?_⟩
  rintro ⟨hsql, hfile⟩
  rcases hone with hnone | hnone
  · rw [hnone] at hsql
    cases hsql
  · rw [hnone] at hfile
    cases hfile

/-- **What is written is parsed**, also a file behind a double hyphen. -/
theorem parse_of_isWritten {arguments : List String} (h : a.IsWritten arguments)
    (hone : a.NamesOne) : parse arguments = .ok a := by
  cases h with
  | options h => exact parse_eq_ok (Progress.readAll_of_isWrittenOpen h) hone
  | @dashes _ before h =>
    have hread : Progress.readAll {} (before ++ ["--"]) = .ok ⟨a, none, true⟩ := by
      rw [Progress.readAll_append, Progress.readAll_of_isWrittenOpen h]
      rfl
    exact parse_eq_ok hread hone
  | @file a before path h hnew hne =>
    have hread : Progress.readAll {} (before ++ ["--", path]) =
        .ok ⟨(Choice.file path).addTo a, none, true⟩ := by
      rw [Progress.readAll_append, Progress.readAll_of_isWrittenOpen h]
      have hdashes : Progress.read ⟨a, none, false⟩ "--".toList = .ok ⟨a, none, true⟩ := rfl
      exact Progress.readAll_two hdashes
        (Progress.read_file (.inl rfl) (setFile_eq_ok hne hnew))
    exact parse_eq_ok hread hone

end Arguments

theorem Options.limit?_eq_ok {a : Arguments} {preset? : Option String} {maxBytes? : Option Nat}
    (h : a.LimitIs preset? maxBytes?) : Options.limit? a preset? = .ok maxBytes? := by
  cases h with
  | given h => simp only [limit?, h]
  | preset h hcount => simp only [limit?, h, hcount]
  | unlimited h => simp only [limit?, h]

/-- **The reader of the command is faithful.** -/
theorem Options.isFaithful_parse : OptionParser.IsFaithful Options.parse where
  parse_eq_ok h hone hlimit := by
    refine bind_eq_ok_iff.mpr ⟨_, Arguments.parse_of_isWritten h hone, ?_⟩
    exact bind_eq_ok_iff.mpr ⟨_, limit?_eq_ok hlimit, rfl⟩

end SqlChecker
