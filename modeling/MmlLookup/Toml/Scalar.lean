import MmlLookup.Toml.Key

/-!
# Numbers, dates and truth values

These readers check the form and the range of a value and give nothing else. Integers
fit in 64 bits with a sign, a float that rounds to positive infinity is refused, and
a date exists in the calendar.
-/

set_option autoImplicit false

namespace MmlLookup.Toml

open Reader

/-! ## Integers -/

/-- Digits that follow a digit. One underscore may stand between two digits. -/
def moreDigits (isDigit : Char → Bool) : Text → Text × Text
  | [] => ([], [])
  | [c] => if isDigit c then ([c], []) else ([], [c])
  | c :: d :: rest =>
    if isDigit c then
      let (digits, rest) := moreDigits isDigit (d :: rest)
      (c :: digits, rest)
    else if c = '_' ∧ isDigit d then
      let (digits, rest) := moreDigits isDigit rest
      (d :: digits, rest)
    else ([], c :: d :: rest)

def digits (isDigit : Char → Bool) : Reader Text := do
  let first ← one isDigit
  let more ← fun text => some (moreDigits isDigit text)
  pure (first :: more)

def valueOf (base : Nat) (digits : Text) : Nat :=
  digits.foldl (fun value c => value * base + (Text.digitValue base c).getD 0) 0

def sign : Reader Bool := do
  match ← possibly (one fun c => c = '+' || c = '-') with
  | some '-' => pure true
  | _ => pure false

def decimalDigits : Reader (Bool × Text) := do
  let negative ← sign
  let digits ← (do let _ ← literal ['0']; pure ['0']) <|> digits Char.isDigit
  pure (negative, digits)

/-- The number of integers at or above zero, the 63rd power of two. -/
def integerBound : Nat := 9223372036854775808

def isOctalDigit (c : Char) : Bool := '0' ≤ c && c ≤ '7'
def isBinaryDigit (c : Char) : Bool := c = '0' || c = '1'

def markedInteger (mark : Char) (base : Nat) (isDigit : Char → Bool) : Reader Unit := do
  literal ['0', mark]
  let digits ← digits isDigit
  if valueOf base digits < integerBound then pure () else failure

def decimalInteger : Reader Unit := do
  let (negative, digits) ← decimalDigits
  let value := valueOf 10 digits
  if value < integerBound ∨ (negative ∧ value = integerBound) then pure () else failure

def integer : Reader Unit :=
  markedInteger 'x' 16 Text.isHexDigit <|> markedInteger 'o' 8 isOctalDigit
    <|> markedInteger 'b' 2 isBinaryDigit <|> decimalInteger

/-! ## Floats -/

/-- The least number that rounds to infinity: halfway from the largest float to the next
power of two. -/
def infinityBound : Nat := Nat.pow 2 1024 - Nat.pow 2 970

/-- The number `digits · 10 ^ exponent` rounds to infinity. Far from the bound, the place
of the first digit decides. -/
def isInfinite (digits : Text) (exponent : Int) : Bool :=
  let significant := digits.dropWhile (· = '0')
  let magnitude : Int := significant.length + exponent
  if significant.isEmpty then false
  else if magnitude < 300 then false
  else if 320 < magnitude then true
  else
    infinityBound * Nat.pow 10 (-exponent).toNat
      ≤ valueOf 10 significant * Nat.pow 10 exponent.toNat

def exponent : Reader Int := do
  let _ ← one fun c => c = 'e' || c = 'E'
  let negative ← sign
  let digits ← digits Char.isDigit
  let value : Int := valueOf 10 digits
  pure (if negative then -value else value)

def fraction : Reader Text := do symbol '.'; digits Char.isDigit

def decimalFloat : Reader Unit := do
  let (negative, whole) ← decimalDigits
  let (fraction, exponent) ←
    (do let value ← exponent; pure ([], value))
      <|> (do let part ← fraction; pure (part, (← possibly exponent).getD 0))
  if !negative && isInfinite (whole ++ fraction) (exponent - fraction.length) then failure
  else pure ()

def specialFloat : Reader Unit := do
  let _ ← sign
  literal ['i', 'n', 'f'] <|> literal ['n', 'a', 'n']

def float : Reader Unit := decimalFloat <|> specialFloat

/-! ## Dates and times -/

def fixedDigits : Nat → Nat → Reader Nat
  | 0, value => pure value
  | width + 1, value => do
    let c ← one Char.isDigit
    fixedDigits width (value * 10 + (c.toNat - '0'.toNat))

def twoDigits (least most : Nat) : Reader Nat := do
  let value ← fixedDigits 2 0
  if least ≤ value ∧ value ≤ most then pure value else failure

def isLeapYear (year : Nat) : Bool := year % 4 = 0 && (year % 100 ≠ 0 || year % 400 = 0)

def daysIn (year month : Nat) : Nat :=
  if month = 2 then (if isLeapYear year then 29 else 28)
  else if month = 4 ∨ month = 6 ∨ month = 9 ∨ month = 11 then 30
  else 31

def date : Reader Unit := do
  let year ← fixedDigits 4 0
  symbol '-'
  let month ← twoDigits 1 12
  symbol '-'
  let _ ← twoDigits 1 (daysIn year month)

def time : Reader Unit := do
  let _ ← twoDigits 0 23
  symbol ':'
  let _ ← twoDigits 0 59
  symbol ':'
  let _ ← twoDigits 0 60
  let _ ← possibly (do symbol '.'; let _ ← properRun Char.isDigit)

def offset : Reader Unit :=
  (do let _ ← one fun c => c = 'Z' || c = 'z')
    <|> (do
      let _ ← one fun c => c = '+' || c = '-'
      let _ ← twoDigits 0 23
      symbol ':'
      let _ ← twoDigits 0 59)

def dateTime : Reader Unit :=
  (do
    date
    let _ ← possibly (do
      let _ ← one fun c => c = 'T' || c = 't' || c = ' '
      time
      possibly offset))
    <|> time

/-! ## All of them -/

def boolean : Reader Unit := literal ['t', 'r', 'u', 'e'] <|> literal ['f', 'a', 'l', 's', 'e']

def scalarValue : Reader Unit := dateTime <|> float <|> integer <|> boolean

end MmlLookup.Toml
