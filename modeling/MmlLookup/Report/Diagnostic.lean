import MmlLookup.Fault

/-!
# Diagnostics

A failure is reported as a short document with headings: what happened and, where
there is one, the remedy. On a terminal the headings are bold.
-/

set_option autoImplicit false

namespace MmlLookup.Report

def unlines (lines : List Text) : Text := lines.flatMap fun line => line ++ ['\n']

def configurationMissing : List Text :=
  [ "# Error: Environment Directory Not Set",
    "",
    "The document uses `#Include` or `#FFFile`, which resolve relative to the",
    "PMD environment directory, and none is configured.",
    "",
    "## Fix",
    "",
    "Point pmdref at your PMD batch file in `.pmdref.toml`:",
    "",
    "    batch_path = \"C:/PMD/MC.BAT\"",
    "",
    "or pass the directory directly:",
    "",
    "    pmdref --env-dir C:/PMD hover song.mml 10 4" ].map String.toList

def render : Failure → Text
  | .configurationMissing => unlines configurationMissing
  | .io fault => unlines ["# Error: I/O".toList, [], fault.message]
  | .malformedToken token =>
    unlines ["# Error: Malformed Token".toList, [],
      ['\x60'] ++ token ++ "` is not a decimal or `$`-hex numeral that fits in 32 bits.".toList]
  | .invalidSettings =>
    unlines ["# Error: Invalid TOML".toList, [], "invalid TOML".toList, [],
      "## Fix".toList, [], "Check `.pmdref.toml`.".toList]
  | .unreadable path fault =>
    unlines ["# Error: Unreadable Document".toList, [],
      ['\x60'] ++ path ++ "` could not be read: ".toList ++ fault.message]

def bold (line : Text) : Text := "\x1b[1m".toList ++ line ++ "\x1b[0m".toList

def printed (failure : Failure) : Text :=
  unlines ((Text.splitLines (render failure)).dropLast.map fun line =>
    if line.head? = some '#' then bold line else line)

end MmlLookup.Report
