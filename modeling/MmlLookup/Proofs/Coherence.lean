import MmlLookup.Proofs.Agreement
import MmlLookup.Proofs.Related
import MmlLookup.Session

/-!
# The cache over a whole session

Files change, are removed and come back, several files take turns under one key, and a
buffer hides some of them for a while. Through all this a cache entry stays what some
file of its key once held at its modification time. Where a key and a modification
time stand for the same bytes throughout the session, and for no directory, no answer
shows whether it came from the cache.
-/

set_option autoImplicit false

namespace MmlLookup

namespace Session

open Search (Walk)

def uncached (session : Session) : Session :=
  { session with store := { session.store with cache := [] } }

def after (session : Session) (events : List Event) : Session :=
  events.foldl (fun session event => (session.step event).2) session

def moments (session : Session) : List Event → List Session
  | [] => [session]
  | event :: events => session :: moments (session.step event).2 events

/-- Throughout the session, files of one key and one modification time hold the same
bytes, and nothing but a file reports the time of a file of its key. -/
structure Faithful (session : Session) (events : List Event) : Prop where
  files : ∀ m ∈ session.moments events, ∀ n ∈ session.moments events, ∀ p q f g,
    m.disk.file p = .ok f → n.disk.file q = .ok g → p.key m.disk.home = q.key n.disk.home →
      f.modified = g.modified → f.bytes = g.bytes
  directories : ∀ m ∈ session.moments events, ∀ n ∈ session.moments events, ∀ p q g,
    n.disk.file q = .ok g → p.key m.disk.home = q.key n.disk.home →
      m.disk.modified? p = some g.modified → ∃ f, m.disk.file p = .ok f

/-! ## A step of related sessions -/

section Steps

variable {session : Session} {R : Store → Store → Prop} {a b : Store}

def Like (R : Store → Store → Prop) (session other : Session) : Prop := R session.store other.store

theorem conclude_together {α : Type} (give : α → Answer) (session other : Session)
    {x y : Except Failure α × Store} (h : Together R x y) :
    Together (Like R) (session.conclude give x) (other.conclude give y) := by
  refine ⟨?_, h.2⟩
  unfold conclude
  rw [h.1]

theorem visitedPaths_congr {walk other : Walk} (h : walk.visited = other.visited) :
    visitedPaths walk = visitedPaths other := by
  unfold visitedPaths
  rw [h]

theorem walk_together {α : Type} (give : α → List Path → Answer) (session other : Session)
    {x y : Except Failure α × Walk} (h : Together (Walk.Like R) x y) :
    Together (Like R) (session.conclude (give · (visitedPaths x.2)) (x.1, x.2.store))
      (other.conclude (give · (visitedPaths y.2)) (y.1, y.2.store)) := by
  obtain ⟨hanswer, hvisited, hstore⟩ := h
  refine ⟨?_, hstore⟩
  unfold conclude
  rw [hanswer, visitedPaths_congr hvisited]

variable (hR : Respects session.setting.disk R)
include hR

theorem ask_together (h : R a b) (source : Source)
    (query : Snapshot → Session → Answer × Session)
    (hq : ∀ doc s t, R s t → Together (Like R) (query doc { session with store := s })
      (query doc { session with store := t })) :
    Together (Like R) (ask { session with store := a } source query)
      (ask { session with store := b } source query) := by
  unfold ask document
  cases source with
  | held name =>
    dsimp only
    cases session.held.find? (·.1 = name) with
    | none => exact ⟨rfl, h⟩
    | some entry => exact hq entry.2 a b h
  | path path anchor =>
    have hload := Respects.load hR h path anchor
    rcases hload with ⟨doc, s, t, ha, hb, hst⟩ | ⟨failure, ha, hb⟩
    · simp only [setting] at ha hb
      simp only [ha, hb]
      exact hq doc s t hst
    · simp only [setting] at ha hb
      simp only [ha, hb]
      exact ⟨rfl, h⟩

theorem follow_together (lines : List Text) (walk other : Walk) (h : walk.Like R other) :
    Together (Walk.Like R) (follow session.setting walk lines)
      (follow session.setting other lines) := by
  induction lines generalizing walk other with
  | nil => exact ⟨rfl, h⟩
  | cons line lines ih =>
    unfold follow
    cases Directive.parse line with
    | none => exact (ih walk other h).map _
    | some directive =>
      rcases Search.openTarget_alike hR h.2 directive with
        ⟨found, s, t, ha, hb, hst⟩ | ⟨failure, ha, hb⟩
      · simp only [ha, hb]
        have hlike : Walk.Like R { walk with store := s } { other with store := t } := ⟨h.1, hst⟩
        cases found with
        | none => exact (ih _ _ hlike).map _
        | some doc =>
          dsimp only
          rw [hlike.hasEntered]
          split
          · exact (ih _ _ hlike).map _
          · exact (ih _ _ ⟨congrArg (· ++ [doc.path]) h.1, hst⟩).map _
      · simp only [ha, hb]
        exact (ih walk other h).map _

theorem step_together (h : R a b) (event : Event) :
    Together (Like R) (step { session with store := a } event)
      (step { session with store := b } event) := by
  have hlookup {α : Type} (give : α → Answer) {x y : Except Failure α × Store}
      (hxy : Together R x y) := conclude_together give { session with store := a }
        { session with store := b } hxy
  cases event with
  | write path bytes modified => cases modified <;> exact ⟨rfl, h⟩
  | touch path modified => cases modified <;> exact ⟨rfl, h⟩
  | remove path => exact ⟨rfl, h⟩
  | makeDirectory path => exact ⟨rfl, h⟩
  | setEnvironment environment => exact ⟨rfl, h⟩
  | setActive path text => exact ⟨rfl, hR.setActive a b _ h⟩
  | clearActive => exact ⟨rfl, hR.clearActive a b h⟩
  | invalidate path => exact ⟨rfl, hR.erase a b _ h⟩
  | load source anchor name =>
    refine ask_together hR h source _ fun doc s t hst => ?_
    cases anchor <;> cases name <;> exact ⟨rfl, hst⟩
  | hover path line column =>
    exact hlookup .hover (Lookup.hover_together hR h path line column)
  | definition path line column =>
    exact hlookup .location
      (Lookup.definition_together hR h path line column)
  | instrument path anchor id =>
    exact hlookup .descriptor
      (Lookup.instrumentAbove_together hR h path anchor id)
  | «variable» path anchor token =>
    exact hlookup .descriptor
      (Lookup.variableAround_together hR h path anchor token)
  | findInstrument source id top =>
    refine ask_together hR h source _ fun doc s t hst => ?_
    exact walk_together .found _ _
      (find_together hR hst doc id top)
  | candidates source token shown direction =>
    refine ask_together hR h source _ fun doc s t hst => ?_
    exact walk_together .candidates _ _
      (candidates_together hR hst doc token shown direction)
  | resolve source token shown =>
    refine ask_together hR h source _ fun doc s t hst => ?_
    exact conclude_together .descriptor _ _
      (variable_together hR hst doc token shown)
  | walk lines =>
    have hlike : Walk.Like R ⟨a, []⟩ ⟨b, []⟩ := ⟨rfl, h⟩
    obtain ⟨hfollowed, hvisited, hstore⟩ := follow_together hR lines _ _ hlike
    refine ⟨?_, hstore⟩
    show Answer.followed _ _ = Answer.followed _ _
    exact congr (congrArg Answer.followed hfollowed) (visitedPaths_congr hvisited)
  | loadSettings root =>
    simp only [step]
    cases Settings.load session.disk root <;> exact ⟨rfl, h⟩
  | command arguments input => exact ⟨rfl, h⟩

end Steps

/-! ## What is kept -/

section Keeping

variable {session : Session} {P : Text → Cached → Prop}

theorem step_keeps (hP : ∀ key entry, session.disk.Holds key entry → P key entry)
    (h : session.store.Keeps P) (event : Event) : (session.step event).2.store.Keeps P := by
  have hR : Respects session.setting.disk (Store.Kept P) := Store.respects_kept session.disk hP
  have hkept : Store.Kept P session.store session.store := ⟨rfl, h⟩
  exact (step_together hR hkept event).2.2

/-- What is kept at any moment has every property of the readings of all moments. -/
theorem moments_keep (session : Session) (events : List Event)
    (hP : ∀ m ∈ session.moments events, ∀ key entry, m.disk.Holds key entry → P key entry)
    (h : session.store.Keeps P) : ∀ m ∈ session.moments events, m.store.Keeps P := by
  induction events generalizing session with
  | nil =>
    intro m hm
    obtain rfl : m = session := by simpa [moments] using hm
    exact h
  | cons event events ih =>
    intro m hm
    rcases List.mem_cons.1 hm with rfl | hm
    · exact h
    · refine ih (session.step event).2 (fun n hn => hP n (List.mem_cons_of_mem _ hn)) ?_ m hm
      exact step_keeps (hP session (List.mem_cons_self)) h event

theorem after_mem_moments (session : Session) (events : List Event) :
    session.after events ∈ session.moments events := by
  induction events generalizing session with
  | nil => exact List.mem_singleton.2 rfl
  | cons event events ih => exact List.mem_cons_of_mem _ (ih (session.step event).2)

def Read (session : Session) (events : List Event) (key : Text) (entry : Cached) : Prop :=
  ∃ m ∈ session.moments events, m.disk.Holds key entry

theorem moments_read (events : List Event) :
    ∀ m ∈ session.uncached.moments events, m.store.Keeps (session.uncached.Read events) :=
  moments_keep session.uncached events (fun m hm _ _ hholds => ⟨m, hm, hholds⟩)
    (Store.keeps_nil _ _)

end Keeping

/-! ## What cannot be told -/

section Uncached

variable {session : Session} {P : Text → Cached → Prop}

theorem step_uncached (hP : ∀ key entry, session.disk.Holds key entry → P key entry)
    (hh : Store.Honest session.disk P) (h : session.store.Keeps P) (event : Event) :
    (session.step event).1 = (session.uncached.step event).1 := by
  have hR : Respects session.setting.disk (Store.Twins P) :=
    Store.respects_honest session.disk hP hh
  have htwins : Store.Twins P session.store { session.store with cache := [] } :=
    ⟨rfl, h, Store.keeps_nil _ _⟩
  exact (step_together hR htwins event).1

theorem faithful_honest (events : List Event) (hfaithful : session.Faithful events) :
    ∀ m ∈ session.moments events, Store.Honest m.disk (session.Read events) := by
  rintro m hm path entry ⟨n, hn, source, text, hk, hr, hl⟩ ht
  obtain ⟨old, hold, hdecode, hmodified⟩ := Disk.read_file n.disk source text _ hr
  obtain ⟨file, hf⟩ := hfaithful.directories m hm n hn path source old hold hk.symm
    (ht.trans (congrArg some hmodified.symm))
  have htime : file.modified = entry.modified :=
    Option.some.inj ((Disk.modified?_of_file hf).symm.trans ht)
  have hbytes := hfaithful.files m hm n hn path source file old hf hold hk.symm
    (htime.trans hmodified.symm)
  have hread := m.disk.read_of_file path file text hf (by rwa [hbytes])
  exact ⟨text, htime ▸ hread, hl⟩

end Uncached

structure Coherent (session : Session) (events : List Event) : Prop where
  /-- Every entry is the lines of what some file of its key held at some moment of the
  session, with the modification time the file had then. -/
  history : ∀ entry ∈ (session.after events).store.cache,
    ∃ m ∈ session.moments events, m.disk.Holds entry.1 entry.2
  /-- In a faithful session nothing that is asked, at any moment, tells what is kept. -/
  blind : session.Faithful events → ∀ m ∈ session.moments events, ∀ event,
    (m.step event).1 = (m.uncached.step event).1
  renewed : ∀ m ∈ session.moments events, ∀ path other,
    other.sameDocument m.disk.home path = true → ∀ anchor moved name,
      ((m.step (.invalidate path)).2.step (.load (.path other anchor) moved name)).1 =
        ((m.step (.invalidate path)).2.uncached.step (.load (.path other anchor) moved name)).1

theorem load_renewed (session : Session) (path other : Path)
    (h : other.sameDocument session.disk.home path = true) (anchor moved : Option Nat)
    (name : Option Text) :
    ((session.step (.invalidate path)).2.step (.load (.path other anchor) moved name)).1 =
      ((session.step (.invalidate path)).2.uncached.step
        (.load (.path other anchor) moved name)).1 := by
  have hkey := (Path.sameDocument_iff _ _ _).1 h
  have hgone : (session.store.invalidate session.disk.home path).cached?
      (other.key session.disk.home) = none := by
    rw [hkey]
    exact Store.cached?_erase _ _
  have hload := Store.load_forgotten session.disk other anchor hgone
  simp only [step, ask, document, uncached]
  revert hload
  generalize (session.store.invalidate session.disk.home path).load session.disk other anchor = x
  generalize Store.load _ session.disk other anchor = y
  intro hload
  cases x <;> cases y <;> simp_all [Except.map]

theorem coherent (session : Session) (events : List Event) :
    Coherent session.uncached events where
  history := by
    intro entry he
    exact moments_read events _ (after_mem_moments _ events) entry he
  blind := by
    intro hfaithful m hm event
    exact step_uncached (fun _ _ hholds => ⟨m, hm, hholds⟩) (faithful_honest events hfaithful m hm)
      (moments_read events m hm) event
  renewed := fun m _ path other h => load_renewed m path other h

/-! ## Files that take turns -/

def everyNode (session : Session) (events : List Event) : List (Text × Node) :=
  (session.moments events).flatMap fun m => m.disk.nodes.map fun entry => (entry.1.key, entry.2)

def timesTell (session : Session) (events : List Event) : Bool :=
  (session.everyNode events).all fun a => (session.everyNode events).all fun b =>
    match a.2 with
    | .file f => a.1 != b.1 || Disk.timeTells f b.2 && Disk.standsApart f b.2
    | .directory _ => true

theorem located_mem_everyNode {session m : Session} {events : List Event}
    (hm : m ∈ session.moments events) {path : Path} {trail : Trail} {node : Node}
    (hl : m.disk.locate path = .ok trail) (hn : m.disk.node? trail = some node) :
    (path.key m.disk.home, node) ∈ session.everyNode events := by
  obtain ⟨hnode, hk⟩ := Disk.located_node m.disk path trail node hl hn
  exact List.mem_flatMap.2 ⟨m, hm, List.mem_map.2 ⟨_, hnode, by rw [hk]⟩⟩

theorem timesTell_located {session m n : Session} {events : List Event}
    (h : session.timesTell events = true) (hm : m ∈ session.moments events)
    (hn : n ∈ session.moments events) {p q : Path} {trail : Trail} {node : Node} {f : File}
    (hf : n.disk.file q = .ok f) (hl : m.disk.locate p = .ok trail)
    (hnode : m.disk.node? trail = some node) (hk : p.key m.disk.home = q.key n.disk.home) :
    Disk.timeTells f node = true ∧ Disk.standsApart f node = true := by
  obtain ⟨place, hplace, hfile⟩ := Disk.file_located n.disk q f hf
  have hall := List.all_eq_true.1 (List.all_eq_true.1 h _ (located_mem_everyNode hn hplace hfile)) _
    (located_mem_everyNode hm hl hnode)
  simpa [hk] using hall

theorem faithful_of_timesTell (session : Session) (events : List Event)
    (h : session.timesTell events = true) : session.Faithful events where
  files := by
    intro m hm n hn p q f g hf hg hk ht
    obtain ⟨trail, hl, hnode⟩ := Disk.file_located m.disk p f hf
    exact (Disk.bytes_of_timeTells (timesTell_located h hm hn hg hl hnode hk).1 ht.symm).symm
  directories := by
    intro m hm n hn p q g hg hk ht
    obtain ⟨trail, node, hl, hnode, hmodified⟩ := Disk.modified?_located m.disk p _ ht
    obtain ⟨f, rfl⟩ := Disk.file_of_standsApart (timesTell_located h hm hn hg hl hnode hk).2
      hmodified
    exact ⟨f, Disk.file_of_located hl hnode⟩

/-- Two files of one key are read in turn. One is hidden by a buffer, removed and
written again; the other is touched, and its time is set back. A directory of that key
has a time of its own. -/
def turns : List Event :=
  [.write "env/a.mml".toList "!x one".toUTF8 (some 1),
    .write "env/A.mml".toList "!x two".toUTF8 (some 2),
    .load (.path "env/a.mml".toList none) none none,
    .load (.path "./env/A.mml".toList none) none none,
    .setActive "env/a.mml".toList "!x three".toList,
    .load (.path "env/A.mml".toList none) none none,
    .clearActive,
    .remove "env/a.mml".toList,
    .write "env/a.mml".toList "!x four".toUTF8 (some 4),
    .touch "env/A.mml".toList (some 9),
    .load (.path "env/A.mml".toList none) none none,
    .touch "env/A.mml".toList (some 2),
    .makeDirectory "env/a.MML".toList,
    .touch "env/a.MML".toList (some 3),
    .load (.path "env/a.MML".toList none) none none,
    .variable "env/A.mml".toList 0 (.named ['x'])]

theorem coherent_turns :
    (start [['w', 'o', 'r', 'k']] none).Faithful turns ∧
      ∀ m ∈ (start [['w', 'o', 'r', 'k']] none).moments turns, ∀ event,
        (m.step event).1 = (m.uncached.step event).1 := by
  have hfaithful : (start [['w', 'o', 'r', 'k']] none).Faithful turns :=
    faithful_of_timesTell _ turns (by decide +kernel)
  exact ⟨hfaithful, (coherent (start [['w', 'o', 'r', 'k']] none) turns).blind hfaithful⟩

end Session

end MmlLookup
