import MmlLookup.Proofs.Related

/-!
# Every line asked for is there

A document has a line even if its text is empty, and an anchor behind its last line is held
there. Up from the anchor, down from below it and through a bank a search stays among the
lines, and what it includes it enters through a snapshot that is anchored in the same way.
So whatever is asked, of whatever snapshot, in whatever state of the store, no line is asked
for that its document does not have.
-/

set_option autoImplicit false

namespace MmlLookup

open Search (Setting Goal Site Moment Takes)

/-! ## What can be obtained -/

/-- The stores that come of an empty one by its operations and by questions. The disk may be
another each time. -/
inductive Store.Obtained : Store → Prop
  | empty : Obtained .empty
  | setActive {store : Store} (buffer : Buffer) : Obtained store →
      Obtained (store.setActive buffer)
  | clearActive {store : Store} : Obtained store → Obtained store.clearActive
  | invalidate {store : Store} (home : Trail) (path : Path) : Obtained store →
      Obtained (store.invalidate home path)
  | load {store after : Store} {disk : Disk} {path : Path} {anchor : Option Nat}
      {doc : Snapshot} : Obtained store → store.load disk path anchor = .ok (doc, after) →
      Obtained after
  | opened {store after : Store} {setting : Setting} {directive : Directive}
      {target : Option Snapshot} : Obtained store →
      Search.openTarget setting store directive = .ok (target, after) → Obtained after
  | asked {store : Store} (setting : Setting) (query : Query) : Obtained store →
      Obtained (query.ask setting store).2

/-- The snapshots that are loaded, opened for a directive, or anchored anew. -/
inductive Snapshot.Obtained : Snapshot → Prop
  | load {store after : Store} {disk : Disk} {path : Path} {anchor : Option Nat}
      {doc : Snapshot} : store.Obtained → store.load disk path anchor = .ok (doc, after) →
      Obtained doc
  | opened {store after : Store} {setting : Setting} {directive : Directive} {doc : Snapshot} :
      store.Obtained → Search.openTarget setting store directive = .ok (some doc, after) →
      Obtained doc
  | withAnchor {doc : Snapshot} (anchor : Nat) : Obtained doc → Obtained (doc.withAnchor anchor)

/-! ## What is read -/

def Reference.query (doc : Snapshot) : Reference → Query
  | .instrument id => .find (doc.withAnchor doc.last) id 0 []
  | .token sought => .resolve doc sought Lookup.currentDocument

namespace Query

def snapshot? : Query → Option Snapshot
  | .find doc .. | .candidates doc .. | .resolve doc .. => some doc
  | _ => none

def Seeks : Query → Text → Reference → Prop
  | .hover _ _ column => Lookup.HoverSeeks column
  | .definition _ _ column => Lookup.JumpSeeks column
  | _ => fun _ _ => False

/-- One question is answered by asking another of the store as it is then. -/
inductive Asks (setting : Setting) : Query → Store → Query → Store → Prop
  | cursor {query : Query} {store after : Store} {path : Path} {line : Nat} {doc : Snapshot}
      {text : Text} {reference : Reference} : query.cursor? = some (path, line) →
      store.load setting.disk path (some line) = .ok (doc, after) →
      doc.lines[line]? = some text → query.Seeks text reference →
      Asks setting query store (reference.query doc) after
  | instrument {store after : Store} {path : Path} {anchor id : Nat} {doc : Snapshot} :
      store.load setting.disk path (some anchor) = .ok (doc, after) →
      Asks setting (.instrument path anchor id) store (.find doc id 0 []) after
  | around {store after : Store} {path : Path} {anchor : Nat} {token : Token}
      {doc : Snapshot} : store.load setting.disk path (some anchor) = .ok (doc, after) →
      Asks setting (.variable path anchor token) store
        (.resolve doc token Lookup.currentDocument) after
  | above {store : Store} {doc : Snapshot} {token : Token} {shown : Text} :
      Asks setting (.resolve doc token shown) store
        (.candidates doc token shown (.backward 0) []) store
  | below {store : Store} {doc : Snapshot} {token : Token} {shown : Text}
      {outcome : Search.Outcome} {visited : List Path} {after : Store} :
      Variable.candidates setting doc token shown (.backward 0) ⟨store, []⟩ =
        (.ok outcome, ⟨after, visited⟩) →
      outcome.shortCircuited = false →
      Asks setting (.resolve doc token shown) store (.candidates doc token shown .forward []) after

/-- The lines that are read to answer a question: the one under its cursor, those its search
takes, and those of the questions it asks. -/
inductive Reads (setting : Setting) : Query → Store → Snapshot → Nat → Prop
  | cursor {query : Query} {store after : Store} {path : Path} {line : Nat} {doc : Snapshot}
      {text : Text} : query.cursor? = some (path, line) →
      store.load setting.disk path (some line) = .ok (doc, after) →
      doc.lines[line]? = some text → Reads setting query store doc line
  | find {doc : Snapshot} {id top : Nat} {visited : List Path} {store : Store} {site : Site}
      {walk : Search.Walk} :
      Takes setting (Instrument.goal id)
        (Search.opening setting.disk.home doc (doc.upward top) doc.stem ⟨store, visited⟩)
        site walk →
      Reads setting (.find doc id top visited) store site.doc site.line
  | candidates {doc : Snapshot} {token : Token} {shown : Text}
      {direction : Variable.Direction} {visited : List Path} {store : Store} {site : Site}
      {walk : Search.Walk} :
      Takes setting (Variable.goal token)
        (Search.opening setting.disk.home doc (direction.lines doc) shown ⟨store, visited⟩)
        site walk →
      Reads setting (.candidates doc token shown direction visited) store site.doc site.line
  | asked {query other : Query} {store after : Store} {doc : Snapshot} {line : Nat} :
      Asks setting query store other after → Reads setting other after doc line →
      Reads setting query store doc line

end Query

/-! ## Anchors -/

namespace Snapshot

def Anchored (doc : Snapshot) : Prop := doc.anchor < doc.lines.length

section Anchors

variable {doc : Snapshot} {lines : List Text}

theorem make_anchored (path : Path) (h : lines ≠ []) (anchor : Option Nat) :
    (make path lines anchor).Anchored := by
  have hpos := List.length_pos_iff.2 h
  cases anchor with
  | none =>
    show lines.length - 1 < lines.length
    omega
  | some line =>
    show min line (lines.length - 1) < lines.length
    omega

theorem Anchored.withAnchor (h : doc.Anchored) (anchor : Nat) :
    (doc.withAnchor anchor).Anchored :=
  make_anchored doc.path (List.ne_nil_of_length_pos (Nat.zero_lt_of_lt h)) (some anchor)

theorem Anchored.line_lt (h : doc.Anchored) (direction : Variable.Direction) :
    ∀ line ∈ direction.lines doc, line < doc.lines.length := by
  intro line hline
  cases direction with
  | backward top => exact Nat.lt_of_le_of_lt ((doc.mem_upward top line).1 hline).2 h
  | forward => exact ((doc.mem_downward line).1 hline).2

theorem Anchored.lines_perm (h : doc.Anchored) :
    ((Variable.Direction.backward 0).lines doc ++ Variable.Direction.forward.lines doc).Perm
      (List.range doc.lines.length) := by
  have hjoined : List.range' 0 (doc.anchor + 1) ++ doc.downward =
      List.range doc.lines.length := by
    have hbelow := @List.range'_append_1 0 (doc.anchor + 1) (doc.lines.length - (doc.anchor + 1))
    rw [Nat.zero_add, Nat.add_sub_cancel' h] at hbelow
    rw [List.range_eq_range', ← hbelow]
    rfl
  rw [← hjoined]
  exact (List.reverse_perm _).append_right doc.downward

end Anchors

end Snapshot

/-! ## Lines that are kept -/

namespace Store

def Lined (store : Store) : Prop := store.Keeps fun _ entry => entry.lines ≠ []

section Lines

variable {setting : Setting} {disk : Disk} {store after : Store} {path : Path}
  {anchor : Option Nat} {doc : Snapshot} {directive : Directive} {target : Option Snapshot}

theorem holds_lined (disk : Disk) (key : Text) (entry : Cached) (h : disk.Holds key entry) :
    entry.lines ≠ [] := by
  obtain ⟨source, text, -, -, hlines⟩ := h
  rw [← hlines]
  exact Text.splitLines_ne_nil text

theorem Lined.load (h : store.Lined) (hl : store.load disk path anchor = .ok (doc, after)) :
    doc.Anchored ∧ after.Lined := by
  obtain ⟨hdoc, hserved⟩ := load_served store disk path anchor doc after hl
  have hlines : doc.lines ≠ [] := by
    generalize doc.lines = lines at hserved
    cases hserved with
    | buffer buffer hb => exact Text.splitLines_ne_nil buffer.text
    | kept entry hb hc hm => exact h.cached? _ entry hc
    | read text modified hb hr => exact Text.splitLines_ne_nil text
  rw [hdoc]
  exact ⟨Snapshot.make_anchored path hlines anchor, hserved.keeps h (holds_lined disk)⟩

theorem Lined.opened (h : store.Lined)
    (ho : Search.openTarget setting store directive = .ok (target, after)) :
    after.Lined ∧ ∀ doc, target = some doc → doc.Anchored := by
  unfold Search.openTarget at ho
  split at ho
  · cases ho
  · split at ho
    · cases ho
      exact ⟨h, fun doc hdoc => by cases hdoc⟩
    · rename_i hl
      cases ho
      obtain ⟨hanchored, hlined⟩ := h.load hl
      refine ⟨hlined, fun doc hdoc => ?_⟩
      cases hdoc
      exact hanchored

/-- Whatever is asked, the store is only used to load documents. -/
theorem Lined.asked (h : store.Lined) (setting : Setting) (query : Query) :
    (query.ask setting store).2.Lined := by
  have hR := respects_kept setting.disk (holds_lined setting.disk)
  have htogether := Query.ask_alike hR.accord ⟨rfl, h⟩ query (fun _ _ => trivial)
    (fun _ _ _ _ hfails => hfails)
  exact htogether.2.2

theorem Obtained.lined (h : store.Obtained) : store.Lined := by
  induction h with
  | empty => exact keeps_nil none _
  | setActive buffer _ ih => exact ih
  | clearActive _ ih => exact ih
  | invalidate home path _ ih => exact ih.erase _
  | load _ hl ih => exact (ih.load hl).2
  | opened _ ho ih => exact (ih.opened ho).1
  | asked setting query _ ih => exact ih.asked setting query

end Lines

end Store

theorem Snapshot.Obtained.anchored {doc : Snapshot} (h : doc.Obtained) : doc.Anchored := by
  induction h with
  | load hstore hl => exact (hstore.lined.load hl).1
  | opened hstore ho => exact (hstore.lined.opened ho).2 _ rfl
  | withAnchor anchor _ ih => exact ih.withAnchor anchor

/-! ## A search stays inside -/

namespace Search

def Site.Inside (site : Site) : Prop := site.line < site.doc.lines.length

/-- The lines still to be taken are there, and so are the lines of what is kept. -/
structure Inside (moment : Moment) : Prop where
  sites : ∀ site ∈ moment.1, site.Inside
  lined : moment.2.store.Lined

section Turns

variable {setting : Setting} {goal : Goal} {doc : Snapshot} {lines : List Nat} {site : Site}
  {store : Store} {walk after : Walk} {ahead rest : List Site} {moment next : Moment}

theorem inside_nil (h : walk.store.Lined) : Inside ([], walk) :=
  ⟨fun _ hsite => absurd hsite List.not_mem_nil, h⟩

theorem Inside.tail (h : Inside (site :: rest, walk)) : Inside (rest, walk) :=
  ⟨fun other ho => h.sites other (List.mem_cons_of_mem site ho), h.lined⟩

theorem sites_inside (h : ∀ line ∈ lines, line < doc.lines.length) (shown : Text) :
    ∀ site ∈ Search.sites doc lines shown, site.Inside := by
  intro site hsite
  obtain ⟨line, hline, rfl⟩ := List.mem_map.1 hsite
  exact h line hline

theorem bankSites_inside (doc : Snapshot) (shown : Text) :
    ∀ site ∈ bankSites doc shown, site.Inside := by
  intro site hsite
  obtain ⟨line, hline, rfl⟩ := List.mem_map.1 hsite
  exact List.mem_range.1 hline

theorem opening_inside (h : ∀ line ∈ lines, line < doc.lines.length) (hstore : store.Lined)
    (home : Trail) (shown : Text) (visited : List Path) :
    Inside (opening home doc lines shown ⟨store, visited⟩) := by
  rw [opening]
  split
  · exact inside_nil hstore
  · exact ⟨sites_inside h shown, hstore⟩

theorem follow_inside (h : walk.store.Lined)
    (hf : follow setting goal site walk = .ok (ahead, after)) : Inside (ahead, after) := by
  obtain ⟨environment, scanned, entered, hstep, rfl⟩ := follow_step hf
  cases hstep with
  | plain hd => exact inside_nil h
  | missing directive failure hd hl => exact inside_nil h
  | bank name doc store hd hl =>
    rw [List.append_nil]
    exact ⟨bankSites_inside doc name, (h.load hl).2⟩
  | again name doc store hd hl hv => exact inside_nil (h.load hl).2
  | entered name doc store hd hl hv =>
    obtain ⟨hanchored, hlined⟩ := h.load hl
    exact ⟨sites_inside (hanchored.line_lt (.backward 0)) _, hlined⟩

theorem Turn.inside (h : Turn setting goal moment next) (hi : Inside moment) : Inside next := by
  cases h with
  | near site rest walk definition hs => exact hi.tail
  | other site rest walk hs => exact hi.tail
  | silent site rest ahead walk after hs hf =>
    have hahead := follow_inside hi.lined hf
    refine ⟨fun other ho => ?_, hahead.lined⟩
    rcases List.mem_append.1 ho with ho | ho
    · exact hahead.sites other ho
    · exact hi.tail.sites other ho

theorem turns_inside (h : Relation.ReflTransGen (Turn setting goal) moment next)
    (hi : Inside moment) : Inside next := by
  induction h with
  | refl => exact hi
  | tail _ hturn ih => exact hturn.inside ih

theorem Takes.inside (h : Takes setting goal moment site walk) (hi : Inside moment) :
    site.Inside := by
  obtain ⟨rest, hturns⟩ := h
  exact (turns_inside hturns hi).sites site List.mem_cons_self

end Turns

end Search

/-! ## Questions -/

namespace Query

/-- The question is asked of an anchored snapshot, if of any, and of a store with lines. -/
structure Ready (query : Query) (store : Store) : Prop where
  lined : store.Lined
  anchored : ∀ doc, query.snapshot? = some doc → doc.Anchored

section Reading

variable {setting : Setting} {query other : Query} {store after : Store} {doc : Snapshot}
  {line : Nat}

theorem ready_of_snapshot (hsnapshot : query.snapshot? = some doc) (h : doc.Anchored)
    (hstore : store.Lined) : Ready query store := by
  refine ⟨hstore, fun other ho => ?_⟩
  obtain rfl : doc = other := Option.some.inj (hsnapshot.symm.trans ho)
  exact h

theorem reference_ready (h : doc.Anchored) (hstore : store.Lined) (reference : Reference) :
    Ready (reference.query doc) store := by
  cases reference with
  | instrument id => exact ready_of_snapshot rfl (h.withAnchor doc.last) hstore
  | token sought => exact ready_of_snapshot rfl h hstore

theorem Asks.ready (h : Asks setting query store other after) (hr : Ready query store) :
    Ready other after := by
  cases h with
  | cursor _ hl _ _ =>
    obtain ⟨hanchored, hlined⟩ := hr.lined.load hl
    exact reference_ready hanchored hlined _
  | instrument hl =>
    obtain ⟨hanchored, hlined⟩ := hr.lined.load hl
    exact ready_of_snapshot rfl hanchored hlined
  | around hl =>
    obtain ⟨hanchored, hlined⟩ := hr.lined.load hl
    exact ready_of_snapshot rfl hanchored hlined
  | above => exact ready_of_snapshot rfl (hr.anchored _ rfl) hr.lined
  | @below _ doc token shown outcome visited _ hpass hs =>
    have hlined := hr.lined.asked setting (.candidates doc token shown (.backward 0) [])
    rw [ask, hpass] at hlined
    exact ready_of_snapshot rfl (hr.anchored _ rfl) hlined

theorem Reads.inside (h : Reads setting query store doc line) (hr : Ready query store) :
    line < doc.lines.length := by
  induction h with
  | cursor _ _ hline => exact (List.getElem?_eq_some_iff.1 hline).1
  | @find doc id top _ _ _ _ ht =>
    have hlines := (hr.anchored doc rfl).line_lt (.backward top)
    exact ht.inside (Search.opening_inside hlines hr.lined _ _ _)
  | @candidates doc token shown direction _ _ _ _ ht =>
    have hlines := (hr.anchored doc rfl).line_lt direction
    exact ht.inside (Search.opening_inside hlines hr.lined _ _ _)
  | asked ha _ ih => exact ih (ha.ready hr)

end Reading

end Query

/-- A snapshot that can be obtained has a line at its anchor, and the passes up and down from
there meet each of its lines once. Whatever is asked, of a snapshot and a store that can be
obtained, each line that is read is one of its document. -/
theorem reads_inside :
    (∀ doc : Snapshot, doc.Obtained →
      0 < doc.lines.length ∧ doc.anchor < doc.lines.length ∧
      ((Variable.Direction.backward 0).lines doc ++ Variable.Direction.forward.lines doc).Perm
        (List.range doc.lines.length)) ∧
    ∀ setting (query : Query) (store : Store), store.Obtained →
      (∀ doc, query.snapshot? = some doc → doc.Obtained) →
      ∀ doc line, query.Reads setting store doc line →
        line < doc.lines.length ∧ doc.lines[line]? = some (doc.lineAt line) := by
  constructor
  · intro doc hdoc
    have hanchored := hdoc.anchored
    exact ⟨Nat.zero_lt_of_lt hanchored, hanchored, hanchored.lines_perm⟩
  · intro setting query store hstore hsnapshot doc line hread
    have hready : query.Ready store :=
      ⟨hstore.lined, fun doc hdoc => (hsnapshot doc hdoc).anchored⟩
    have hline := hread.inside hready
    refine ⟨hline, ?_⟩
    rw [Snapshot.lineAt, List.getD_eq_getElem?_getD, List.getElem?_eq_getElem hline]
    rfl

namespace Lookup

def duetLibrary : Snapshot :=
  .make "env/lib.mml".toList ["@2 bass".toList, "!lead o4".toList] none

/-- The song, loaded with an anchor far behind its last line, and anchored anew at its first
line, is searched there, and then the library that it includes there. -/
theorem reads_inside_duet :
    (duetSong.withAnchor 0).Obtained ∧
      Query.Reads ⟨duet, some "env".toList⟩ (.find (duetSong.withAnchor 0) 2 0 []) duetStore
        duetLibrary 1 ∧
      1 < duetLibrary.lines.length := by
  have hl : Store.empty.load duet "song.mml".toList (some (2 ^ 64 - 1)) =
      .ok (duetSong.withAnchor (2 ^ 64 - 1), duetStore) := rfl
  have hfar : (duetSong.withAnchor (2 ^ 64 - 1)).Obtained := .load .empty hl
  have hsong : (duetSong.withAnchor 0).Obtained := hfar.withAnchor 0
  have htakes : ∃ walk, Takes ⟨duet, some "env".toList⟩ (Instrument.goal 2)
      (Search.opening duet.home (duetSong.withAnchor 0) [0] "song".toList ⟨duetStore, []⟩)
      ⟨duetLibrary, 1, "lib".toList, false⟩ walk :=
    ⟨_, Search.Turn.takes (.silent _ _ _ _ _ rfl rfl) Search.takes_first⟩
  obtain ⟨walk, htakes⟩ := htakes
  have hread := @Query.Reads.find _ (duetSong.withAnchor 0) 2 0 [] duetStore _ walk htakes
  have hinside := reads_inside.2 _ _ duetStore (.load .empty hl)
    (fun doc hdoc => by cases hdoc; exact hsong) _ _ hread
  exact ⟨hsong, hread, hinside.1⟩

end Lookup

end MmlLookup
