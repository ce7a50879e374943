import MmlLookup.Text.Digit
import MmlLookup.Toml.Reader

/-!
# Strings

A string stands between quotes, with escapes, or between apostrophes, as it is. Tripled
marks let it run over several lines. No control character but the tab stands in a
string, and a line end counts as a line feed.
-/

set_option autoImplicit false
set_option linter.unusedVariables false

namespace MmlLookup.Toml

open Reader

def namedEscape : Char → Option Char
  | 'b' => some '\x08'
  | 't' => some '\t'
  | 'n' => some '\n'
  | 'f' => some '\x0c'
  | 'r' => some '\r'
  | '"' => some '"'
  | '\\' => some '\\'
  | _ => none

/-- The character with a code; a surrogate or a code beyond the last is refused. -/
def scalar (code : Nat) : Option Char :=
  if h : code.isValidChar then some (Char.ofNatAux code h) else none

def coded (width : Nat) (text : Text) : Option (Char × Text) :=
  if text.length < width then none
  else
    let code := (text.take width).foldlM
      (fun value c => (Text.digitValue 16 c).map (value * 16 + ·)) 0
    (code.bind scalar).map fun c => (c, text.drop width)

def escape : Text → Option (Char × Text)
  | [] => none
  | 'u' :: rest => coded 4 rest
  | 'U' :: rest => coded 8 rest
  | c :: rest => (namedEscape c).map fun c => (c, rest)

theorem coded_length (width : Nat) (text rest : Text) (c : Char)
    (h : coded width text = some (c, rest)) : rest.length ≤ text.length := by
  unfold coded at h
  split at h
  · cases h
  · obtain ⟨_, _, heq⟩ := Option.map_eq_some_iff.1 h
    cases heq
    simp

theorem escape_length (text rest : Text) (c : Char) (h : escape text = some (c, rest)) :
    rest.length < text.length := by
  unfold escape at h
  split at h
  · cases h
  · exact Nat.lt_succ_of_le (coded_length _ _ _ _ h)
  · exact Nat.lt_succ_of_le (coded_length _ _ _ _ h)
  · obtain ⟨_, _, heq⟩ := Option.map_eq_some_iff.1 h
    cases heq
    simp

def basicBody (text : Text) : Option (Text × Text) :=
  match text with
  | [] => none
  | '"' :: rest => some ([], rest)
  | '\\' :: rest =>
    match h : escape rest with
    | none => none
    | some (c, after) => (basicBody after).map fun (body, rest) => (c :: body, rest)
  | c :: rest =>
    if isPlain c then (basicBody rest).map fun (body, rest) => (c :: body, rest) else none
termination_by text.length
decreasing_by
  · have := escape_length _ _ _ h
    simp only [List.length_cons]
    omega
  · simp

/-- The text up to the closing quotes of a string over several lines. One or two quotes
may stand anywhere, also just before the closing three. A backslash at the end of a
line joins it to the next character that is neither a space nor a line end. -/
def longBasicBody (text : Text) : Option (Text × Text) :=
  match text with
  | [] => none
  | '"' :: '"' :: '"' :: '"' :: '"' :: rest => some (['"', '"'], rest)
  | '"' :: '"' :: '"' :: '"' :: rest => some (['"'], rest)
  | '"' :: '"' :: '"' :: rest => some ([], rest)
  | '\r' :: '\n' :: rest => (longBasicBody rest).map fun (body, rest) => ('\n' :: body, rest)
  | '\\' :: rest =>
    match newline (rest.dropWhile isSpace) with
    | some _ => longBasicBody (skipBreaks rest)
    | none =>
      match h : escape rest with
      | none => none
      | some (c, after) => (longBasicBody after).map fun (body, rest) => (c :: body, rest)
  | c :: rest =>
    if isPlain c ∨ c = '\n' then (longBasicBody rest).map fun (body, rest) => (c :: body, rest)
    else none
termination_by text.length
decreasing_by
  · simp only [List.length_cons]
    omega
  · have := skipBreaks_length rest
    simp only [List.length_cons]
    omega
  · have := escape_length _ _ _ h
    simp only [List.length_cons]
    omega
  · simp

def literalBody : Text → Option (Text × Text)
  | [] => none
  | '\'' :: rest => some ([], rest)
  | c :: rest =>
    if isPlain c then (literalBody rest).map fun (body, rest) => (c :: body, rest) else none

def longLiteralBody : Text → Option (Text × Text)
  | [] => none
  | '\'' :: '\'' :: '\'' :: '\'' :: '\'' :: rest => some (['\'', '\''], rest)
  | '\'' :: '\'' :: '\'' :: '\'' :: rest => some (['\''], rest)
  | '\'' :: '\'' :: '\'' :: rest => some ([], rest)
  | '\r' :: '\n' :: rest => (longLiteralBody rest).map fun (body, rest) => ('\n' :: body, rest)
  | c :: rest =>
    if isPlain c ∨ c = '\n' then (longLiteralBody rest).map fun (body, rest) => (c :: body, rest)
    else none

/-- A line end just behind the opening quotes is not part of a string. -/
def longOpening (quote : Char) : Reader Unit := do
  literal [quote, quote, quote]
  let _ ← possibly newline

def shortString : Reader Text :=
  (do symbol '"'; basicBody) <|> (do symbol '\''; literalBody)

def string : Reader Text :=
  (do longOpening '"'; longBasicBody) <|> (do longOpening '\''; longLiteralBody) <|> shortString

end MmlLookup.Toml
