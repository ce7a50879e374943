import MmlLookup.Text.UpperCase

/-!
# Paths

A path is a text of pieces between slashes. Empty pieces and single dots name
nothing, two dots name the enclosing directory. A leading slash makes a path
absolute. Joining keeps both texts as they are.

Two paths name the same document when they spell one place up to letter case and
the direction of slashes. The key of a path is that place in capitals. It decides
the cache slot of a document, whether the open buffer stands for it, and whether
a search has entered it. The empty path has a key of its own.
-/

set_option autoImplicit false

namespace MmlLookup

abbrev Path := Text

namespace Path

def isAbsolute : Path → Bool
  | '/' :: _ => true
  | _ => false

def join (directory name : Path) : Path :=
  if isAbsolute name then name
  else if directory = [] ∨ directory.getLast? = some '/' then directory ++ name
  else directory ++ '/' :: name

def pieces (path : Path) : List Text := Text.splitOn '/' path

def isIdle (piece : Text) : Bool := piece.isEmpty || piece == ['.']

def up : Text := ['.', '.']

/-- The leading slash or the leading dot piece of a path, apart from what follows. -/
def lead : Path → Path × Path
  | '/' :: body => (['/'], body)
  | ['.'] => (['.'], [])
  | '.' :: '/' :: body => (['.'], '/' :: body)
  | path => ([], path)

/-- The pieces behind the lead, last first, from the last one that names something. -/
def trailing (path : Path) : List Text := (pieces (lead path).2).reverse.dropWhile isIdle

/-- The path without its last component. The root and the empty path have none. -/
def parent (path : Path) : Option Path :=
  match trailing path with
  | [] => if (lead path).1 = ['.'] then some [] else none
  | _ :: before =>
    some ((lead path).1 ++ Text.joinWith '/' (before.dropWhile isIdle).reverse)

/-- The part of a name before its last dot. A name without a dot, or with its only
dot in front, is kept whole. -/
def withoutExtension (name : Text) : Text :=
  match name.reverse.dropWhile (· ≠ '.') with
  | [] => name
  | [_] => name
  | _ :: before => before.reverse

/-- The last component without its extension, if it is a name. -/
def stem (path : Path) : Option Text :=
  match trailing path with
  | [] => none
  | name :: _ => if name = up then none else some (withoutExtension name)

end Path

/-- A place in the file tree: the names that lead to it, the innermost first. -/
abbrev Trail := List Text

namespace Trail

/-- Follow one piece of a path. Above the root lies the root. -/
def step (trail : Trail) (piece : Text) : Trail :=
  if Path.isIdle piece then trail
  else if piece = Path.up then trail.tail
  else piece :: trail

def start (home : Trail) (path : Path) : Trail := if Path.isAbsolute path then [] else home

/-- The place a path spells, by its text alone. -/
def ofPath (home : Trail) (path : Path) : Trail :=
  (Path.pieces path).foldl step (start home path)

def toPath (trail : Trail) : Path := '/' :: Text.joinWith '/' trail.reverse

/-- The absolute path with forward slashes, in capitals. -/
def key (trail : Trail) : Text :=
  Text.upperCase (trail.toPath.map fun c => if c = '\\' then '/' else c)

end Trail

/-! ## Documents -/

namespace Path

def key (home : Trail) (path : Path) : Text :=
  if path = [] then [] else (Trail.ofPath home path).key

def sameDocument (home : Trail) (p q : Path) : Bool := key home p == key home q

end Path

end MmlLookup
