import SqlChecker.Command.Arguments
import SqlChecker.Command.Input

/-! # Options

What the arguments of a command ask for. What they leave open is settled here: a report is printed
as JSON, and the limit is that of the environment, if it has one. -/
namespace SqlChecker

/-- What the arguments and the environment of a command ask for. -/
structure Options where
  sql? : Option String := none
  file? : Option String := none
  format : Format := .json
  maxBytes? : Option Nat := none
  /-- Tell what is done. -/
  verbose : Bool := false
  deriving DecidableEq, Repr

/-- A reader of options, from arguments and from the limit that the environment sets, if it does. -/
abbrev OptionParser := List String → Option String → Except Interruption Options

namespace Options

/-- The input that is to be read. -/
def input (o : Options) : Input := .choose o.sql? o.file?

/-- The settings of the validation. -/
def settings (o : Options) : Settings := { maxInputBytes? := o.maxBytes? }

/-- The limit that is asked for: that of the option, or else that of the environment. -/
def limit? (a : Arguments) (preset? : Option String) : Except Interruption (Option Nat) :=
  match a.maxBytes?, preset? with
  | some count, _ => .ok (some count)
  | none, none => .ok none
  | none, some value => match Arguments.byteCount? value.toList with
    | some count => .ok (some count)
    | none => .error (.usage (.badDefaultLimit value))

/-- Reads options. -/
def parse : OptionParser := fun arguments preset? => do
  let a ← Arguments.parse arguments
  let maxBytes? ← limit? a preset?
  return {
    sql? := a.sql?
    file? := a.file?
    format := a.format?.getD .json
    maxBytes?
    verbose := a.verbose }

end Options
end SqlChecker
