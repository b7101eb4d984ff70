import SqlChecker.Report.Format
import SqlChecker.Validation

/-! # Command-line arguments

The arguments of a command are read from left to right, one at a time. An argument that begins with
a hyphen names options, unless it is a hyphen alone or stands after a double hyphen; any other names
the file to check. An option is named by its full name or its letter. A value follows its option as
the next argument or is attached to it; letters may be joined, where all after the first that takes
a value is the value. No option may be given twice.

Asking for the version or for help stops the reading at once, whatever follows. -/
namespace SqlChecker

/-- An option that takes a value. -/
inductive ValueOption where
  | sql
  | format
  | maxBytes
  deriving DecidableEq, Repr

/-- An option that is set by naming it. -/
inductive Flag where
  | verbose
  | version
  | help
  deriving DecidableEq, Repr

/-- An option of the command. -/
inductive Switch where
  | value (o : ValueOption)
  | flag (f : Flag)
  deriving DecidableEq, Repr

namespace Switch

/-- Every option. -/
def all : List Switch :=
  [.value .sql, .value .format, .value .maxBytes, .flag .verbose, .flag .version, .flag .help]

/-- The name after a double hyphen. -/
def name : Switch → String
  | value .sql => "sql"
  | value .format => "format"
  | value .maxBytes => "max-bytes"
  | flag .verbose => "verbose"
  | flag .version => "version"
  | flag .help => "help"

/-- The letter after a single hyphen. -/
def letter? : Switch → Option Char
  | value .sql => some 's'
  | value .format => some 'f'
  | value .maxBytes => none
  | flag .verbose => some 'v'
  | flag .version => some 'V'
  | flag .help => some 'h'

/-- The option with a full name. -/
def ofName? (name : List Char) : Option Switch := all.find? (·.name.toList == name)

/-- The option with a letter. -/
def ofLetter? (c : Char) : Option Switch := all.find? (·.letter? == some c)

end Switch

/-- What is wrong with the arguments. -/
inductive UsageError where
  | unknown (argument : String)
  | repeated (s : Switch)
  | missingValue (o : ValueOption)
  | unwantedValue (f : Flag)
  | badValue (o : ValueOption) (value : String)
  | emptyFile
  | extraFile (argument : String)
  | sqlWithFile
  /-- The environment gives a limit that is no number of bytes. -/
  | badDefaultLimit (value : String)
  deriving DecidableEq, Repr

/-- The variable of the environment that sets the limit where no option does. -/
def limitVariable : String := "SQLVET_MAX_BYTES"

/-- What is said of wrong arguments. -/
def UsageError.message : UsageError → String
  | unknown argument => "unknown option in '" ++ argument ++ "'"
  | repeated s => "option --" ++ s.name ++ " is given more than once"
  | missingValue o => "option --" ++ (Switch.value o).name ++ " needs a value"
  | unwantedValue f => "option --" ++ (Switch.flag f).name ++ " takes no value"
  | badValue o value => "'" ++ value ++ "' is no value for --" ++ (Switch.value o).name
  | emptyFile => "the name of the file is empty"
  | extraFile argument => "only one file can be checked, not also '" ++ argument ++ "'"
  | sqlWithFile => "a file cannot be given together with --sql"
  | badDefaultLimit value => "'" ++ value ++ "' is no value for " ++ limitVariable

/-- Why the reading of arguments stops. -/
inductive Interruption where
  | usage (e : UsageError)
  | version
  | help
  deriving DecidableEq, Repr

/-- What the arguments ask for, as far as they have been read. -/
structure Arguments where
  sql? : Option String := none
  file? : Option String := none
  format? : Option Format := none
  maxBytes? : Option Nat := none
  verbose : Bool := false
  deriving DecidableEq, Repr

namespace Arguments

/-- The number of bytes that a value is written for: a numeral, perhaps after a plus sign, of a
number that fits into 64 bits. -/
def byteCount? (value : List Char) : Option Nat :=
  match value with
  | '+' :: numeral => Text.wordOfDecimal? numeral
  | numeral => Text.wordOfDecimal? numeral

/-- Gives an option its value. -/
def setValue (a : Arguments) (o : ValueOption) (value : List Char) :
    Except Interruption Arguments :=
  let text := String.ofList value
  match o with
  | .sql => if a.sql?.isSome then repeatedOption else .ok { a with sql? := some text }
  | .format => match Format.ofName? text with
    | none => bad text
    | some format =>
      if a.format?.isSome then repeatedOption else .ok { a with format? := some format }
  | .maxBytes => match byteCount? value with
    | none => bad text
    | some count =>
      if a.maxBytes?.isSome then repeatedOption else .ok { a with maxBytes? := some count }
where
  repeatedOption := .error (.usage (.repeated (.value o)))
  bad (text : String) := .error (.usage (.badValue o text))

/-- Sets a flag. -/
def setFlag (a : Arguments) : Flag → Except Interruption Arguments
  | .verbose =>
    if a.verbose then .error (.usage (.repeated (.flag .verbose)))
    else .ok { a with verbose := true }
  | .version => .error .version
  | .help => .error .help

/-- Takes an argument as the file to check. -/
def setFile (a : Arguments) (path : List Char) : Except Interruption Arguments :=
  if path = [] then .error (.usage .emptyFile)
  else if a.file?.isSome then .error (.usage (.extraFile (String.ofList path)))
  else .ok { a with file? := some (String.ofList path) }

/-- Reads the letters after a hyphen. An option is left over if its value is still to come. -/
def readLetters (a : Arguments) : List Char →
    Except Interruption (Arguments × Option ValueOption)
  | [] => .ok (a, none)
  | c :: rest => match Switch.ofLetter? c with
    | none => .error (.usage (.unknown (String.ofList ('-' :: c :: rest))))
    | some (.flag f) => do (← a.setFlag f).readLetters rest
    | some (.value o) => match rest with
      | [] => .ok (a, some o)
      | '=' :: value => do return (← a.setValue o value, none)
      | value => do return (← a.setValue o value, none)

/-- Reads what follows a double hyphen. An option is left over if its value is still to come. -/
def readName (a : Arguments) (body : List Char) :
    Except Interruption (Arguments × Option ValueOption) :=
  match Switch.ofName? (body.takeWhile (· != '=')), body.dropWhile (· != '=') with
  | none, _ => .error (.usage (.unknown (String.ofList ('-' :: '-' :: body))))
  | some (.flag f), [] => do return (← a.setFlag f, none)
  | some (.flag f), _ => .error (.usage (.unwantedValue f))
  | some (.value o), [] => .ok (a, some o)
  | some (.value o), _ :: value => do return (← a.setValue o value, none)

/-- Where the reading of arguments stands. -/
structure Progress where
  arguments : Arguments := {}
  /-- The option whose value is still to come. -/
  pending? : Option ValueOption := none
  /-- A double hyphen has been met, after which no option is named. -/
  filesOnly : Bool := false
  deriving DecidableEq, Repr

/-- An argument that can be the value of the option before it: one that names no options. -/
def isPlain : List Char → Bool
  | '-' :: _ :: _ => false
  | _ => true

/-- Reads one argument. -/
def Progress.read (p : Progress) (argument : List Char) : Except Interruption Progress :=
  match p.pending? with
  | some o =>
    if isPlain argument then do
      return { p with arguments := ← p.arguments.setValue o argument, pending? := none }
    else .error (.usage (.missingValue o))
  | none =>
    if p.filesOnly ∨ isPlain argument then do
      return { p with arguments := ← p.arguments.setFile argument }
    else match argument.tail with
      | ['-'] => .ok { p with filesOnly := true }
      | '-' :: body => do
        let (arguments, pending?) ← p.arguments.readName body
        return { p with arguments, pending? }
      | letters => do
        let (arguments, pending?) ← p.arguments.readLetters letters
        return { p with arguments, pending? }

/-- Reads all arguments. -/
def parse (arguments : List String) : Except Interruption Arguments := do
  let p ← arguments.foldlM (fun p argument => p.read argument.toList) ({} : Progress)
  match p.pending? with
  | some o => .error (.usage (.missingValue o))
  | none =>
    if p.arguments.sql?.isSome ∧ p.arguments.file?.isSome then .error (.usage .sqlWithFile)
    else .ok p.arguments

end Arguments
end SqlChecker
