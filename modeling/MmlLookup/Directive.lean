import MmlLookup.Path
import MmlLookup.Text.Blank

/-!
# Directives

A directive names another document. `#FFFile name.FF` or `#FFFile name.FFL` names
an instrument bank, whose source lies in the environment directory as `name.MML`.
`#Include name` names a document whose lines are searched in place. Keywords are
matched in either case, and a name ends at the line's end.
-/

set_option autoImplicit false

namespace MmlLookup

inductive Directive where
  | bank (name : Text)
  | inclusion (name : Text)
  deriving DecidableEq

namespace Directive

def name : Directive → Text
  | bank name => name
  | inclusion name => name

def target (environment : Path) : Directive → Path
  | bank name => Path.join environment (name ++ ['.', 'M', 'M', 'L'])
  | inclusion name => Path.join environment name

/-- The text before the last `.ff` of a line, at least one character. -/
def beforeMark : Text → Option Text
  | [] => none
  | c :: rest =>
    if c = '\n' then none
    else match beforeMark rest with
      | some name => some (c :: name)
      | none => (Text.afterKeyword ['.', 'f', 'f'] rest).map fun _ => [c]

/-- The line's text without blanks at its end, if anything is left. -/
def includedName (text : Text) : Option Text :=
  match (Text.restOfLine text).map Text.trimEnd with
  | some (c :: name) => some (c :: name)
  | _ => none

def parse (line : Text) : Option Directive :=
  match Text.afterKeyword ['#', 'f', 'f', 'f', 'i', 'l', 'e'] line with
  | some rest => (Text.afterBlanks beforeMark rest).map bank
  | none =>
    match Text.afterKeyword ['#', 'i', 'n', 'c', 'l', 'u', 'd', 'e'] line with
    | some rest => (Text.afterBlanks includedName rest).map inclusion
    | none => none

end Directive

end MmlLookup
