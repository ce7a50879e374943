import MmlLookup.Numeral
import MmlLookup.Path

/-!
# The command line

A command line is a subcommand with its values. The environment directory and the
output format may be given before or after the subcommand, once at each place, and
the later one counts. Two dashes end the options of the subcommand. A line that does
not have this form is refused as a whole.
-/

set_option autoImplicit false

namespace MmlLookup.Command

inductive Format where
  | text
  | json
  deriving DecidableEq

/-- What is asked. A cursor query may take the text of its document from standard input. -/
inductive Request where
  | definition (file : Path) (line column : Nat) (stdin : Bool)
  | hover (file : Path) (line column : Nat) (stdin : Bool)
  | instrument (file : Path) (anchor : Nat) (id : Text)
  | variable (file : Path) (anchor : Nat) (token : Text)
  | number (text : Text)
  | envelope (id : Nat)
  | drum (mask : Nat)

structure Invocation where
  request : Request
  environment : Option Path
  format : Format

/-! ## Values -/

def digitsValue (text : Text) : Option Nat :=
  if text.isEmpty || !text.all Char.isDigit then none
  else some (text.foldl (fun value c => value * 10 + (c.toNat - '0'.toNat)) 0)

/-- Positions stay below this bound, the 64th power of two. -/
def positionBound : Nat := 18446744073709551616

/-- A position, perhaps behind a plus sign. -/
def position (text : Text) : Option Nat :=
  let digits := match text with
    | '+' :: digits => digits
    | digits => digits
  (digitsValue digits).filter (· < positionBound)

/-- A table number, perhaps behind a sign. Only zero can be negative. -/
def tableNumber (text : Text) : Option Nat :=
  match text with
  | '+' :: digits => (digitsValue digits).filter (· < Numeral.bound)
  | '-' :: digits => (digitsValue digits).filter (· = 0)
  | digits => (digitsValue digits).filter (· < Numeral.bound)

def pathValue (text : Text) : Option Path := if text.isEmpty then none else some text

def formatValue (text : Text) : Option Format :=
  if text = "text".toList then some .text
  else if text = "json".toList then some .json
  else none

/-! ## Options -/

inductive Argument where
  | environment (attached : Option Text)
  | format (attached : Option Text)
  | stdin
  | stop
  | unknown
  | plain (text : Text)

/-- The argument is an option; its value, if attached by an equals sign. -/
def attachedTo (option : String) (argument : Text) : Option (Option Text) :=
  if argument = option.toList then some none
  else if (option.toList ++ ['=']).isPrefixOf argument then
    some (some (argument.drop (option.toList.length + 1)))
  else none

/-- A dash alone is plain; any other argument with a dash in front is an option. -/
def classify (argument : Text) : Argument :=
  match attachedTo "--env-dir" argument, attachedTo "--format" argument with
  | some attached, _ => .environment attached
  | none, some attached => .format attached
  | none, none =>
    if argument = "--stdin".toList then .stdin
    else if argument = "--".toList then .stop
    else match argument with
      | '-' :: _ :: _ => .unknown
      | _ => .plain argument

structure Options where
  environment : Option Path
  format : Option Format
  stdin : Bool

namespace Options

def empty : Options := ⟨none, none, false⟩

def addEnvironment (options : Options) (text : Text) : Option Options :=
  match options.environment, pathValue text with
  | none, some path => some { options with environment := some path }
  | _, _ => none

def addFormat (options : Options) (text : Text) : Option Options :=
  match options.format, formatValue text with
  | none, some format => some { options with format := some format }
  | _, _ => none

def addStdin (options : Options) : Option Options :=
  if options.stdin then none else some { options with stdin := true }

end Options

abbrev Reading := Argument × Text

def untilSubcommand (options : Options) : List Reading → Option (Options × Text × List Reading)
  | (.plain name, _) :: rest => some (options, name, rest)
  | (.environment (some value), _) :: rest =>
    match options.addEnvironment value with
    | none => none
    | some options => untilSubcommand options rest
  | (.environment none, _) :: (.plain value, _) :: rest =>
    match options.addEnvironment value with
    | none => none
    | some options => untilSubcommand options rest
  | (.format (some value), _) :: rest =>
    match options.addFormat value with
    | none => none
    | some options => untilSubcommand options rest
  | (.format none, _) :: (.plain value, _) :: rest =>
    match options.addFormat value with
    | none => none
    | some options => untilSubcommand options rest
  | _ => none

def behindSubcommand (options : Options) : List Reading → Option (Options × List Text)
  | [] => some (options, [])
  | (.stop, _) :: rest => some (options, rest.map (·.2))
  | (.plain text, _) :: rest =>
    (behindSubcommand options rest).map fun (options, values) => (options, text :: values)
  | (.stdin, _) :: rest =>
    match options.addStdin with
    | none => none
    | some options => behindSubcommand options rest
  | (.environment (some value), _) :: rest =>
    match options.addEnvironment value with
    | none => none
    | some options => behindSubcommand options rest
  | (.environment none, _) :: (.plain value, _) :: rest =>
    match options.addEnvironment value with
    | none => none
    | some options => behindSubcommand options rest
  | (.format (some value), _) :: rest =>
    match options.addFormat value with
    | none => none
    | some options => behindSubcommand options rest
  | (.format none, _) :: (.plain value, _) :: rest =>
    match options.addFormat value with
    | none => none
    | some options => behindSubcommand options rest
  | _ => none

/-! ## Subcommands -/

def cursorRequest (make : Path → Nat → Nat → Request) : List Text → Option Request
  | [file, line, column] => do
    pure (make (← pathValue file) (← position line) (← position column))
  | _ => none

def anchorRequest (make : Path → Nat → Text → Request) : List Text → Option Request
  | [file, anchor, name] => do pure (make (← pathValue file) (← position anchor) name)
  | _ => none

/-- The request a subcommand makes of its values. Only cursor queries read standard input. -/
def request (name : Text) (values : List Text) (stdin : Bool) : Option Request :=
  if name = "definition".toList then
    cursorRequest (fun file line column => .definition file line column stdin) values
  else if name = "hover".toList then
    cursorRequest (fun file line column => .hover file line column stdin) values
  else if stdin then none
  else if name = "instrument".toList then anchorRequest .instrument values
  else if name = "variable".toList then anchorRequest .variable values
  else match values with
    | [value] =>
      if name = "number".toList then some (.number value)
      else if name = "envelope".toList then (tableNumber value).map .envelope
      else if name = "drum".toList then (tableNumber value).map .drum
      else none
    | _ => none

def parse (arguments : List Text) : Option Invocation := do
  let readings := arguments.map fun argument => (classify argument, argument)
  let (before, name, rest) ← untilSubcommand .empty readings
  let (behind, values) ← behindSubcommand .empty rest
  let request ← request name values behind.stdin
  pure
    { request,
      environment := behind.environment.or before.environment,
      format := (behind.format.or before.format).getD .text }

end MmlLookup.Command
