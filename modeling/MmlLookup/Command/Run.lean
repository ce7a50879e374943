import MmlLookup.Command.Line
import MmlLookup.Report.Diagnostic
import MmlLookup.Report.Json
import MmlLookup.Settings

/-!
# Running a command

A command reads the settings of the working directory, then standard input if it is
asked to, and then makes one query against a store of its own. A numeral on the
command line is checked before anything is read. The exit code says whether there is
a result, and does not depend on the output format.
-/

set_option autoImplicit false

namespace MmlLookup.Command

inductive Answer where
  | location (location : Location)
  | descriptor (descriptor : Descriptor)
  | hover (hover : Hover)
  | label (text : Text)
  | numeral (value : Nat)

namespace Answer

open Report (Json)

def json : Answer → Json
  | location place => Json.ofLocation place
  | descriptor found => Json.ofDescriptor found
  | hover shown => Json.ofHover shown
  | label text => .string text
  | numeral value =>
    .object
      [ ("decimal", .string (Numeral.format .decimal value)),
        ("hex", .string (Numeral.format .hexadecimal value)),
        ("value", .number value) ]

def placeText (place : Location) : Text := place.path ++ ':' :: Text.decimal place.line

def text : Answer → Text
  | location place => placeText place
  | descriptor found =>
    placeText found.location ++ ": ".toList ++ Text.trim found.definition ++ " (from ".toList
      ++ found.fileName ++ [')'] ++ (if found.perfect then [] else " [partial]".toList)
  | hover shown => shown.contents
  | label text => text
  | numeral value =>
    Numeral.format .decimal value ++ ' ' :: Numeral.format .hexadecimal value

end Answer

/-- What a document query runs against: the setting and a store with the open buffer. -/
structure Workspace where
  setting : Search.Setting
  store : Store

def numeral (text : Text) : Except Failure Nat :=
  match Numeral.parse text with
  | some value => .ok value
  | none => .error (.malformedToken text)

def workspace (disk : Disk) (input : ByteArray) (environment : Option Path) (file : Path)
    (stdin : Bool) : Except Failure Workspace :=
  match Settings.load disk ['.'] with
  | .error failure => .error failure
  | .ok settings =>
    let setting : Search.Setting := ⟨disk, (settings.withEnvironment environment).environment⟩
    if stdin then
      match Disk.decode input with
      | .error fault => .error (.io fault)
      | .ok text => .ok ⟨setting, Store.empty.setActive ⟨file, text⟩⟩
    else .ok ⟨setting, Store.empty⟩

def answer (disk : Disk) (input : ByteArray) (environment : Option Path) :
    Request → Except Failure (Option Answer)
  | .definition file line column stdin => do
    let work ← workspace disk input environment file stdin
    return (← (Lookup.definition work.setting work.store file line column).1).map .location
  | .hover file line column stdin => do
    let work ← workspace disk input environment file stdin
    return (← (Lookup.hover work.setting work.store file line column).1).map .hover
  | .instrument file anchor id => do
    let id ← numeral id
    let work ← workspace disk input environment file false
    return (← (Lookup.instrumentAbove work.setting work.store file anchor id).1).map .descriptor
  | .variable file anchor token => do
    let work ← workspace disk input environment file false
    let token := Token.ofText token
    return (← (Lookup.variableAround work.setting work.store file anchor token).1).map .descriptor
  | .number text => do return some (.numeral (← numeral text))
  | .envelope id => .ok ((Table.envelopeLabel id).map .label)
  | .drum mask => .ok ((Table.drumLabel mask).map .label)

inductive Complaint where
  | nothing
  | usage
  | noResult
  | report (failure : Failure)

structure Response where
  exit : Nat
  output : Text
  complaint : Complaint

/-- A missing environment directory counts as no result. -/
def exitCode : Failure → Nat
  | .configurationMissing => 1
  | _ => 3

def respond (format : Format) : Except Failure (Option Answer) → Response
  | .error failure => ⟨exitCode failure, [], .report failure⟩
  | .ok none =>
    match format with
    | .json => ⟨1, Report.unlines [Report.Json.null.render 0], .nothing⟩
    | .text => ⟨1, [], .noResult⟩
  | .ok (some answer) =>
    match format with
    | .json => ⟨0, Report.unlines [answer.json.render 0], .nothing⟩
    | .text => ⟨0, Report.unlines [answer.text], .nothing⟩

def run (disk : Disk) (input : ByteArray) (arguments : List Text) : Response :=
  match parse arguments with
  | none => ⟨2, [], .usage⟩
  | some invocation =>
    respond invocation.format (answer disk input invocation.environment invocation.request)

/-- What is printed to standard error. How a refused line is explained is left open. -/
def Complaint.text : Complaint → Text
  | nothing => []
  | usage => "error: invalid arguments\n".toList
  | noResult => "no result\n".toList
  | report failure => Report.printed failure

end MmlLookup.Command
