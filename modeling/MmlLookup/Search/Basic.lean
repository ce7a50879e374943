import MmlLookup.Directive
import MmlLookup.Known

/-!
# Searching documents

A search works down an agenda of lines. Each line either defines what is sought,
or resembles it, or defines something else, or is silent. A silent line may be a
directive. An included document is entered once: its lines, from the last to the
first, come next on the agenda. The lines of a bank come next from the first to the
last and are not searched for directives. A target that cannot be read is passed
over, and only a missing environment directory ends the search without an answer.

This module holds what a search is about: its setting, the lines on its agenda,
its goal and its outcome, and how a silent line leads to further lines.
-/

set_option autoImplicit false

namespace MmlLookup.Search

structure Setting where
  disk : Disk
  environment : Option Path

/-- A line on the agenda, with the name shown for results found on it. -/
structure Site where
  doc : Snapshot
  line : Nat
  shown : Text
  inBank : Bool

namespace Site

def text (site : Site) : Text := site.doc.lineAt site.line

def descriptor (site : Site) (definition : Text) (perfect : Bool) : Descriptor :=
  { definition, fileName := site.shown, location := ⟨site.doc.path, site.line⟩, perfect }

end Site

inductive Sign where
  | hit (definition : Text)
  | near (definition : Text)
  | other
  | silent

/-- What a search looks for: how it reads a line, whether it consults banks, and the
name it shows for an included document. -/
structure Goal where
  sign : Text → Sign
  banks : Bool
  shown : Text → Path → Text

/-- The store as it is now, and the documents entered, in order. -/
structure Walk where
  store : Store
  visited : List Path

/-- The near matches in the order met, or the one exact match that ended the search. -/
structure Outcome where
  candidates : List Descriptor
  shortCircuited : Bool
  deriving DecidableEq

namespace Outcome

def nothing : Outcome := ⟨[], false⟩

def exactly (found : Descriptor) : Outcome := ⟨[found], true⟩

def following (candidate : Descriptor) (rest : Outcome) : Outcome :=
  if rest.shortCircuited then rest else { rest with candidates := candidate :: rest.candidates }

end Outcome

namespace Walk

def hasEntered (walk : Walk) (home : Trail) (path : Path) : Bool :=
  walk.visited.any fun entered => entered.sameDocument home path

def enter (walk : Walk) (path : Path) : Walk := { walk with visited := walk.visited ++ [path] }

def remaining (walk : Walk) (disk : Disk) : List Text :=
  (walk.store.knownKeys disk).filter fun key =>
    !(walk.visited.map (Path.key disk.home)).contains key

end Walk

def sites (doc : Snapshot) (lines : List Nat) (shown : Text) : List Site :=
  lines.map fun line => ⟨doc, line, shown, false⟩

def bankSites (doc : Snapshot) (shown : Text) : List Site :=
  (List.range doc.lines.length).map fun line => ⟨doc, line, shown, true⟩

/-- Load the document a directive names, anchored at its last line. -/
def openTarget (setting : Setting) (store : Store) (directive : Directive) :
    Except Failure (Option Snapshot × Store) :=
  match setting.environment with
  | none => .error .configurationMissing
  | some environment =>
    match store.load setting.disk (directive.target environment) none with
    | .error _ => .ok (none, store)
    | .ok (doc, store) => .ok (some doc, store)

def directiveOf (goal : Goal) (site : Site) : Option Directive :=
  if site.inBank then none
  else match Directive.parse site.text with
    | some (.bank name) => if goal.banks then some (.bank name) else none
    | directive => directive

/-- Follow the directive on a silent line: the lines that come next on the agenda. -/
def follow (setting : Setting) (goal : Goal) (site : Site) (walk : Walk) :
    Except Failure (List Site × Walk) :=
  match directiveOf goal site with
  | none => .ok ([], walk)
  | some directive =>
    match openTarget setting walk.store directive with
    | .error failure => .error failure
    | .ok (none, store) => .ok ([], { walk with store })
    | .ok (some doc, store) =>
      let walk := { walk with store }
      match directive with
      -- a bank is not entered: it may be met again, and its own directives do not count
      | .bank name => .ok (bankSites doc name, walk)
      | .inclusion name =>
        if walk.hasEntered setting.disk.home doc.path then .ok ([], walk)
        else .ok (sites doc (doc.upward 0) (goal.shown name doc.path), walk.enter doc.path)

end MmlLookup.Search
