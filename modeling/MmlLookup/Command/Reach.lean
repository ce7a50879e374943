import MmlLookup.Command.Run

/-!
# What a command may read

A document query reads the settings file, the queried document, and the documents
that directives name, from there on. Given a part of the disk, `reach` lists the
paths that this part leads to. A part that holds all it leads to is all a command
can tell of the disk.
-/

set_option autoImplicit false

namespace MmlLookup.Command

def Request.file? : Request → Option Path
  | .definition file _ _ _ => some file
  | .hover file _ _ _ => some file
  | .instrument file _ _ => some file
  | .variable file _ _ => some file
  | .number _ => none
  | .envelope _ => none
  | .drum _ => none

def Request.readsInput : Request → Bool
  | .definition _ _ _ stdin => stdin
  | .hover _ _ _ stdin => stdin
  | _ => false

def texts (disk : Disk) : List Text :=
  disk.nodes.filterMap fun entry =>
    match entry.2 with
    | .directory _ => none
    | .file file => (Disk.decode file.bytes).toOption

def targets (environment : Option Path) (text : Text) : List Path :=
  match environment with
  | none => []
  | some environment =>
    ((Text.splitLines text).filterMap Directive.parse).map (·.target environment)

/-- The paths that an invocation may read, as far as a part of the disk tells. -/
def reach (disk : Disk) (input : ByteArray) (invocation : Invocation) : List Path :=
  match invocation.request.file? with
  | none => []
  | some file =>
    let environment :=
      match Settings.load disk ['.'] with
      | .ok settings => (settings.withEnvironment invocation.environment).environment
      | .error _ => none
    Path.join ['.'] Settings.fileName :: file
      :: ((Disk.decode input).toOption.toList ++ texts disk).flatMap (targets environment)

end MmlLookup.Command

namespace MmlLookup.Trail

def along (home : Trail) (path : Path) : List Trail :=
  path.pieces.foldl (fun places piece => (places.headD home).step piece :: places)
    [start home path]

end MmlLookup.Trail
