import MmlLookup.Text.Blank
import MmlLookup.Text.Digit

/-!
# Numerals

A numeral is plain decimal, as in `12`, or hexadecimal behind a dollar sign, as
in `$0C`. Its value fits in 32 bits. Reading refuses a larger value, whatever
the number of digits. A variable is referred to by a token: a number or a bare name.
-/

set_option autoImplicit false

namespace MmlLookup

namespace Numeral

/-- Values stay below this bound, the 32nd power of two. -/
def bound : Nat := 4294967296

inductive Radix where
  | decimal
  | hexadecimal

/-- The value of a digit run read after `value`, refused as soon as it leaves the
bound or meets a character without a value. -/
def readDigits (base : Nat) (value : Nat) : Text → Option Nat
  | [] => some value
  | c :: rest =>
    match Text.digitValue base c with
    | none => none
    | some digit =>
      if value * base + digit < bound then readDigits base (value * base + digit) rest else none

def isRun (isDigit : Char → Bool) (text : Text) : Bool := !text.isEmpty && text.all isDigit

def parse (text : Text) : Option Nat :=
  match Text.trim text with
  | '$' :: digits => if isRun Text.isHexDigit digits then readDigits 16 0 digits else none
  | digits => if isRun Text.isDecimalDigit digits then readDigits 10 0 digits else none

/-- The shortest spelling of a value; hexadecimal letters are capitals. -/
def format (radix : Radix) (value : Nat) : Text :=
  match radix with
  | .decimal => Text.decimal value
  | .hexadecimal => '$' :: (Nat.toDigits 16 value).map Char.toUpper

def leading : Text → Option (Text × Text)
  | '$' :: rest =>
    (Text.leadingRun Text.isHexDigit rest).map fun (digits, rest) => ('$' :: digits, rest)
  | text => Text.leadingRun Text.isDecimalDigit text

end Numeral

inductive Token where
  | named (name : Text)
  | numeric (value : Nat)
  deriving DecidableEq

namespace Token

def ofText (text : Text) : Token :=
  match Numeral.parse text with
  | some value => numeric value
  | none => named text

end Token

end MmlLookup
