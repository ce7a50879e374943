import MmlLookup.Text.Basic

/-!
# Blanks

A blank is a character of the White_Space class. Blanks separate the words of a
line, pad numerals and surround the definition text shown to a user.
-/

set_option autoImplicit false

namespace MmlLookup.Text

def isBlank (c : Char) : Bool :=
  let code := c.toNat
  (0x9 ≤ code && code ≤ 0xD) || code == 0x20 || code == 0x85 || code == 0xA0
    || code == 0x1680 || (0x2000 ≤ code && code ≤ 0x200A) || code == 0x2028
    || code == 0x2029 || code == 0x202F || code == 0x205F || code == 0x3000

def trimStart (text : Text) : Text := text.dropWhile isBlank

def trimEnd (text : Text) : Text := (text.reverse.dropWhile isBlank).reverse

def trim (text : Text) : Text := trimEnd (trimStart text)

def word (text : Text) : Text := text.takeWhile fun c => !isBlank c

/-- One or more blanks, as many as possible, and then what `read` accepts. While
`read` refuses, the blanks are handed back to it one at a time. -/
def afterBlanks {α : Type} (read : Text → Option α) : Text → Option α
  | [] => none
  | c :: rest =>
    if isBlank c then
      match afterBlanks read rest with
      | some result => some result
      | none => read rest
    else none

def restOfLine (text : Text) : Option Text :=
  match text.takeWhile (· ≠ '\n') with
  | [] => none
  | line => some line

end MmlLookup.Text
