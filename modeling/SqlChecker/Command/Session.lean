import SqlChecker.Command.Options

/-! # Sessions

A session reads the input it is asked to check, validates it and prints the report. It ends with a
code: zero if the text is valid, one if it is not, and two if there was nothing to validate. On
request it also tells what it does.

How options are read, and what files and standard input hold, is for those to say who start it. -/
namespace SqlChecker

/-- What a session leaves behind. -/
structure Session where
  code : Nat
  /-- What is printed. -/
  printed : String
  /-- The lines printed beside that: what was done, and what went wrong. -/
  log : List String
  deriving DecidableEq, Repr

/-- How a number is told. -/
def shownNat (n : Nat) : String := String.ofList (Text.decimal n)

/-- How settings are told. -/
def Settings.shown (settings : Settings) : String :=
  let limit := match settings.maxInputBytes? with
    | some limit => "Some(" ++ shownNat limit ++ ")"
    | none => "None"
  "ValidatorConfig \x7b max_input_bytes: " ++ limit ++ " \x7d"

/-- How an event is told. -/
def Event.shown : Event → String
  | overLimit limit => "input over size limit limit=" ++ shownNat limit
  | tokenized tokens => "tokenized tokens=" ++ shownNat tokens
  | faulty count => "lexical errors, skipping grammar check count=" ++ shownNat count
  | brokenOff position => "syntax error position=" ++ shownNat position
  | validated valid errors =>
    "validated valid=" ++ (if valid then "true" else "false") ++ " errors=" ++ shownNat errors

namespace Session

/-- A line that tells what is done. -/
def told (what : String) : String := "DEBUG " ++ what

/-- The line that tells an event in the validation of a text of so many bytes. -/
def toldEvent (size : Nat) (e : Event) : String :=
  told ("validate\x7bsource_len=" ++ shownNat size ++ "\x7d: " ++ e.shown)

/-- How the command is used. -/
def usage : String :=
  "Usage: sqlvet [OPTIONS] [FILE]\n\n" ++
  "Checks the syntax of the SQL statement in FILE. Without one, or if it is -,\n" ++
  "standard input is checked.\n\n" ++
  "  -s, --sql SQL        check this text instead\n" ++
  "  -f, --format FORMAT  print the report as json (default) or text\n" ++
  "      --max-bytes N    refuse a text of more bytes [variable: " ++ limitVariable ++ "]\n" ++
  "  -v, --verbose        tell what is done\n" ++
  "  -h, --help           print this\n" ++
  "  -V, --version        print the version\n"

/-- A session that ends with its arguments. -/
def ofInterruption : Interruption → Session
  | .usage e => ⟨2, "", ["error: " ++ e.message]⟩
  | .version => ⟨0, "sqlvet 0.1.0\n", []⟩
  | .help => ⟨0, usage, []⟩

/-- A session that has read this text, or failed to read one. -/
def ofRead (o : Options) (found : Except ReadError String) : Session :=
  let reading := told ("reading input input=" ++ o.input.shown)
  match found with
  | .error e => ⟨2, "", (if o.verbose then [reading] else []) ++ ["Error: " ++ e.report]⟩
  | .ok text =>
    let source := text.toList
    let validation := Validation.run o.settings source
    let log := reading :: told ("validating config=" ++ o.settings.shown) ::
      validation.events.map (toldEvent (Text.byteLength source))
    ⟨if validation.report.isValid then 0 else 1,
      String.ofList (validation.report.render source o.format),
      if o.verbose then log else []⟩

/-- What surrounds a session, with the effects that it takes to look at it. -/
structure Surroundings (m : Type → Type) where
  /-- The limit that the environment sets. -/
  limit? : m (Option String)
  fileAt (path : String) : m (Except ReadFault ByteArray)
  standardInput : m (Except ReadFault ByteArray)

variable {m : Type → Type} [Monad m]

/-- Reads an input. -/
def Surroundings.read (s : Surroundings m) : Input → m (Except ReadError String)
  | .inline text => pure (.ok text)
  | .file path => decodeInput (some path) <$> s.fileAt path
  | .standard => decodeInput none <$> s.standardInput

/-- The session of a command with these arguments. -/
def run (parse : OptionParser) (s : Surroundings m) (arguments : List String) : m Session := do
  match parse arguments (← s.limit?) with
  | .error i => return ofInterruption i
  | .ok o => return ofRead o (← s.read o.input)

end Session
end SqlChecker
