import MmlLookup.Command.Run

/-!
# Sessions

A session is a host at work: files change on the disk, a buffer is opened and closed,
and queries are asked of one store. Snapshots may be held under a name and searched
later, as they were. A file written or touched without a time of its own takes the
next tick of the session's clock.
-/

set_option autoImplicit false

namespace MmlLookup

structure Session where
  disk : Disk
  environment : Option Path
  store : Store
  held : List (Text × Snapshot)
  clock : Nat

namespace Session

open Search (Setting Walk)

def start (home : Trail) (environment : Option Path) : Session :=
  { disk := .empty home, environment, store := .empty, held := [], clock := 0 }

def setting (session : Session) : Setting := ⟨session.disk, session.environment⟩

/-- A document of a query: a snapshot that is held, or one loaded for the query. -/
inductive Source where
  | held (name : Text)
  | path (path : Path) (anchor : Option Nat)

inductive Event where
  | write (path : Path) (bytes : ByteArray) (modified : Option Nat)
  | touch (path : Path) (modified : Option Nat)
  | remove (path : Path)
  | makeDirectory (path : Path)
  | setEnvironment (environment : Option Path)
  | setActive (path : Path) (text : Text)
  | clearActive
  | invalidate (path : Path)
  | load (source : Source) (anchor : Option Nat) (name : Option Text)
  | hover (path : Path) (line column : Nat)
  | definition (path : Path) (line column : Nat)
  | instrument (path : Path) (anchor id : Nat)
  | variable (path : Path) (anchor : Nat) (token : Token)
  | findInstrument (source : Source) (id top : Nat)
  | candidates (source : Source) (token : Token) (shown : Text) (direction : Variable.Direction)
  | resolve (source : Source) (token : Token) (shown : Text)
  | walk (lines : List Text)
  | loadSettings (root : Path)
  | command (arguments : List Text) (input : ByteArray)

inductive Followed where
  | noDirective
  | failed (failure : Failure)
  | unreadable
  | opened (doc : Snapshot) (entered : Bool)

inductive Answer where
  | done
  | failed (failure : Failure)
  | snapshot (doc : Snapshot)
  | hover (hover : Option Hover)
  | location (location : Option Location)
  | descriptor (descriptor : Option Descriptor)
  | found (descriptor : Option Descriptor) (visited : List Path)
  | candidates (outcome : Search.Outcome) (visited : List Path)
  | followed (lines : List Followed) (visited : List Path)
  | environment (path : Option Path)
  | response (response : Command.Response)

def visitedPaths (walk : Walk) : List Path := walk.visited.mergeSort fun a b => !decide (b < a)

def conclude {α : Type} (session : Session) (give : α → Answer)
    (result : Except Failure α × Store) : Answer × Session :=
  let answer := match result.1 with
    | .error failure => .failed failure
    | .ok value => give value
  (answer, { session with store := result.2 })

def document (session : Session) : Source → Except Failure (Snapshot × Store)
  | .held name =>
    match session.held.find? (·.1 = name) with
    | some (_, doc) => .ok (doc, session.store)
    | none => .error (.unreadable name .noEntry)
  | .path path anchor => session.store.load session.disk path anchor

def ask (session : Session) (source : Source) (query : Snapshot → Session → Answer × Session) :
    Answer × Session :=
  match session.document source with
  | .error failure => (.failed failure, session)
  | .ok (doc, store) => query doc { session with store }

def hold (session : Session) (name : Option Text) (doc : Snapshot) : Session :=
  match name with
  | none => session
  | some name => { session with held := (name, doc) :: session.held }

def tick (session : Session) : Option Nat → Nat × Session
  | some modified => (modified, session)
  | none => (session.clock + 1, { session with clock := session.clock + 1 })

def follow (setting : Setting) (walk : Walk) : List Text → List Followed × Walk
  | [] => ([], walk)
  | line :: lines =>
    let (first, walk) : Followed × Walk :=
      match Directive.parse line with
      | none => (.noDirective, walk)
      | some directive =>
        match Search.openTarget setting walk.store directive with
        | .error failure => (.failed failure, walk)
        | .ok (none, store) => (.unreadable, { walk with store })
        | .ok (some doc, store) =>
          let walk := { walk with store }
          if walk.hasEntered setting.disk.home doc.path then (.opened doc false, walk)
          else (.opened doc true, walk.enter doc.path)
    let (others, walk) := follow setting walk lines
    (first :: others, walk)

def step (session : Session) : Event → Answer × Session
  | .write path bytes modified =>
    let (modified, session) := session.tick modified
    (.done, { session with disk := session.disk.write path { bytes, modified } })
  | .touch path modified =>
    let (modified, session) := session.tick modified
    (.done, { session with disk := session.disk.touch path modified })
  | .remove path => (.done, { session with disk := session.disk.remove path })
  | .makeDirectory path => (.done, { session with disk := session.disk.makeDirectory path })
  | .setEnvironment environment => (.done, { session with environment })
  | .setActive path text => (.done, { session with store := session.store.setActive ⟨path, text⟩ })
  | .clearActive => (.done, { session with store := session.store.clearActive })
  | .invalidate path =>
    (.done, { session with store := session.store.invalidate session.disk.home path })
  | .load source anchor name =>
    session.ask source fun doc session =>
      let doc := match anchor with
        | some anchor => doc.withAnchor anchor
        | none => doc
      (.snapshot doc, session.hold name doc)
  | .hover path line column =>
    session.conclude .hover (Lookup.hover session.setting session.store path line column)
  | .definition path line column =>
    session.conclude .location (Lookup.definition session.setting session.store path line column)
  | .instrument path anchor id =>
    session.conclude .descriptor
      (Lookup.instrumentAbove session.setting session.store path anchor id)
  | .variable path anchor token =>
    session.conclude .descriptor
      (Lookup.variableAround session.setting session.store path anchor token)
  | .findInstrument source id top =>
    session.ask source fun doc session =>
      let (result, walk) := Instrument.find session.setting doc id top ⟨session.store, []⟩
      session.conclude (.found · (visitedPaths walk)) (result, walk.store)
  | .candidates source token shown direction =>
    session.ask source fun doc session =>
      let (result, walk) :=
        Variable.candidates session.setting doc token shown direction ⟨session.store, []⟩
      session.conclude (.candidates · (visitedPaths walk)) (result, walk.store)
  | .resolve source token shown =>
    session.ask source fun doc session =>
      session.conclude .descriptor
        (Variable.resolve session.setting doc token shown session.store)
  | .walk lines =>
    let (opened, walk) := follow session.setting ⟨session.store, []⟩ lines
    (.followed opened (visitedPaths walk), { session with store := walk.store })
  | .loadSettings root =>
    match Settings.load session.disk root with
    | .error failure => (.failed failure, session)
    | .ok settings => (.environment settings.environment, session)
  | .command arguments input => (.response (Command.run session.disk input arguments), session)

def kept (session : Session) : Nat := session.store.cache.length

def run (session : Session) : List Event → List (Answer × Nat)
  | [] => []
  | event :: events =>
    let (answer, session) := session.step event
    (answer, session.kept) :: run session events

end Session

end MmlLookup
