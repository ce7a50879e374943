import MmlLookup.Proofs.Lockstep

/-!
# Stores that cannot be told apart

Whatever is asked, a store is only asked for lines. So a relation of stores that holds
again after both have been asked for the lines of a document, with the same lines for
an answer, holds again after every search and every lookup, with the same answer. A
cache that is kept sound, and a cache beside an empty one, are both cases of this.
-/

set_option autoImplicit false

namespace MmlLookup

/-- A relation of stores that no use of them leaves. -/
structure Respects (disk : Disk) (R : Store → Store → Prop) : Prop where
  lines : ∀ a b path, R a b → Alike R (a.lines disk path) (b.lines disk path)
  setActive : ∀ a b buffer, R a b → R (a.setActive buffer) (b.setActive buffer)
  clearActive : ∀ a b, R a b → R a.clearActive b.clearActive
  erase : ∀ a b key, R a b → R (a.erase key) (b.erase key)

/-! ## Two such relations -/

namespace Store

def Kept (P : Text → Cached → Prop) (a b : Store) : Prop := a = b ∧ a.Keeps P

theorem respects_kept {P : Text → Cached → Prop} (disk : Disk)
    (hP : ∀ key entry, disk.Holds key entry → P key entry) : Respects disk (Kept P) where
  lines := by
    rintro a _ path ⟨rfl, hk⟩
    cases hl : a.lines disk path with
    | ok served =>
      exact Or.inl ⟨served.1, served.2, served.2, rfl, rfl, rfl,
        (lines_served a disk path served.1 served.2 hl).keeps hk hP⟩
    | error failure => exact Or.inr ⟨failure, rfl, rfl⟩
  setActive := by
    rintro a _ buffer ⟨rfl, hk⟩
    exact ⟨rfl, hk⟩
  clearActive := by
    rintro a _ ⟨rfl, hk⟩
    exact ⟨rfl, hk⟩
  erase := by
    rintro a _ key ⟨rfl, hk⟩
    exact ⟨rfl, hk.erase key⟩

section Honesty

variable {store : Store} {disk : Disk} {P : Text → Cached → Prop}

/-- Everything that may be kept for a file with its modification time is what it holds. -/
def Honest (disk : Disk) (P : Text → Cached → Prop) : Prop :=
  ∀ path entry, P (path.key disk.home) entry → disk.modified? path = some entry.modified →
    ∃ text, disk.read path = .ok (text, entry.modified) ∧ Text.splitLines text = entry.lines

def reading (disk : Disk) (active : Option Buffer) (path : Path) : Except Failure (List Text) :=
  ((Store.mk active []).lines disk path).map Prod.fst

theorem reading_of_fresh (path : Path) (hb : store.buffer? disk.home path = none) :
    reading disk store.active path = match disk.read path with
      | .error fault => .error (.unreadable path fault)
      | .ok (text, _) => .ok (Text.splitLines text) := by
  have hb' : (Store.mk store.active []).buffer? disk.home path = none := hb
  unfold reading Store.lines
  cases hr : disk.read path <;> simp [hb', Store.fresh?, Store.cached?, Except.map]

theorem lines_buffered (path : Path) (buffer : Buffer)
    (hb : store.buffer? disk.home path = some buffer) :
    (store.lines disk path).map Prod.fst = .ok (Text.splitLines buffer.text) := by
  simp [Store.lines, hb, Except.map]

theorem reading_of_buffer (path : Path) (buffer : Buffer)
    (hb : store.buffer? disk.home path = some buffer) :
    reading disk store.active path = .ok (Text.splitLines buffer.text) :=
  lines_buffered path buffer hb

theorem lines_unkept (path : Path) (hf : store.fresh? disk path = none) :
    (store.lines disk path).map Prod.fst = reading disk store.active path := by
  cases hb : store.buffer? disk.home path with
  | some buffer => rw [lines_buffered path buffer hb, reading_of_buffer path buffer hb]
  | none =>
    rw [reading_of_fresh path hb]
    unfold Store.lines
    cases hr : disk.read path <;> simp [hb, hf, Except.map]

/-- If a path is served what is kept under its key, that is what the path reads. -/
def Right (store : Store) (disk : Disk) (path : Path) : Prop :=
  ∀ entry, store.cached? (path.key disk.home) = some entry →
    disk.modified? path = some entry.modified →
      ∃ text, disk.read path = .ok (text, entry.modified) ∧ Text.splitLines text = entry.lines

theorem Keeps.right (hk : store.Keeps P) (hh : Honest disk P) (path : Path) :
    store.Right disk path :=
  fun entry hc hm => hh path entry (hk.cached? _ _ hc) hm

theorem lines_right {path : Path} (h : store.Right disk path) :
    (store.lines disk path).map Prod.fst = reading disk store.active path := by
  cases hf : store.fresh? disk path with
  | none => exact lines_unkept path hf
  | some lines =>
    cases hb : store.buffer? disk.home path with
    | some buffer => rw [lines_buffered path buffer hb, reading_of_buffer path buffer hb]
    | none =>
      obtain ⟨entry, hc, hm, rfl⟩ := fresh?_some store disk path lines hf
      obtain ⟨text, hr, hl⟩ := h entry hc hm
      rw [reading_of_fresh path hb, hr]
      simp [Store.lines, hb, hf, hl, Except.map]

theorem lines_alike {a b : Store} {path : Path} (hactive : a.active = b.active)
    (ha : a.Right disk path) (hb : b.Right disk path) :
    Alike (fun s t => ∃ lines, Served a disk path lines s ∧ Served b disk path lines t)
      (a.lines disk path) (b.lines disk path) := by
  have hsame : (a.lines disk path).map Prod.fst = (b.lines disk path).map Prod.fst := by
    rw [lines_right ha, lines_right hb, hactive]
  cases hla : a.lines disk path with
  | ok served =>
    cases hlb : b.lines disk path with
    | ok other =>
      have heq : served.1 = other.1 := by simpa [hla, hlb, Except.map] using hsame
      exact .inl ⟨served.1, served.2, other.2, rfl, by rw [heq], served.1,
        lines_served a disk path served.1 served.2 hla,
        heq ▸ lines_served b disk path other.1 other.2 hlb⟩
    | error failure => simp [hla, hlb, Except.map] at hsame
  | error failure =>
    cases hlb : b.lines disk path with
    | ok other => simp [hla, hlb, Except.map] at hsame
    | error other =>
      have heq : failure = other := by simpa [hla, hlb, Except.map] using hsame
      exact .inr ⟨failure, rfl, by rw [heq]⟩

def Twins (P : Text → Cached → Prop) (a b : Store) : Prop :=
  a.active = b.active ∧ a.Keeps P ∧ b.Keeps P

/-- Over honest caches two stores with one buffer cannot be told apart. -/
theorem respects_honest (disk : Disk)
    (hP : ∀ key entry, disk.Holds key entry → P key entry) (hh : Honest disk P) :
    Respects disk (Twins P) where
  lines := by
    rintro a b path ⟨hactive, ha, hb⟩
    rcases lines_alike hactive (ha.right hh path) (hb.right hh path) with
      ⟨value, s, t, hla, hlb, lines, hs, ht⟩ | hfails
    · exact .inl ⟨value, s, t, hla, hlb, by rw [hs.active, ht.active, hactive], hs.keeps ha hP,
        ht.keeps hb hP⟩
    · exact .inr hfails
  setActive := fun a b buffer h => ⟨rfl, h.2⟩
  clearActive := fun a b h => ⟨rfl, h.2⟩
  erase := fun a b key h => ⟨h.1, h.2.1.erase key, h.2.2.erase key⟩

theorem load_forgotten (disk : Disk) (path : Path) (anchor : Option Nat)
    (h : store.cached? (path.key disk.home) = none) :
    (store.load disk path anchor).map Prod.fst =
      ((Store.mk store.active []).load disk path anchor).map Prod.fst := by
  have hf : store.fresh? disk path = none := by simp [Store.fresh?, h]
  have hlines := lines_unkept path hf
  unfold Store.load
  unfold reading at hlines
  cases hs : store.lines disk path <;>
    cases hu : (Store.mk store.active []).lines disk path <;>
      simp_all [Except.map]

theorem cached?_erase (store : Store) (key : Text) : (store.erase key).cached? key = none := by
  simp [Store.cached?, Store.erase]

end Honesty

end Store

theorem Store.load_alike {R : Store → Store → Prop} {disk : Disk} {a b : Store} {path : Path}
    (h : Alike R (a.lines disk path) (b.lines disk path)) (anchor : Option Nat) :
    Alike R (a.load disk path anchor) (b.load disk path anchor) := by
  unfold Store.load
  rcases h with ⟨lines, s, t, ha, hb, hst⟩ | ⟨failure, ha, hb⟩
  · exact .inl ⟨Snapshot.make path lines anchor, s, t, by rw [ha], by rw [hb], hst⟩
  · exact .inr ⟨failure, by rw [ha], by rw [hb]⟩

section Queries

variable {setting : Search.Setting} {R : Store → Store → Prop} {a b : Store}
  (hR : Respects setting.disk R)
include hR

theorem Respects.load (h : R a b) (path : Path) (anchor : Option Nat) :
    Alike R (a.load setting.disk path anchor) (b.load setting.disk path anchor) :=
  Store.load_alike (hR.lines a b path h) anchor

theorem Respects.accord : Accord setting setting (fun _ => True) R where
  home := rfl
  environment := rfl
  lines := fun a b path _ h => (hR.lines a b path h).matched

theorem Search.openTarget_alike (h : R a b) (directive : Directive) :
    Alike R (openTarget setting a directive) (openTarget setting b directive) :=
  openTarget_lockstep hR.accord h directive fun _ _ => trivial

theorem find_together (h : R a b) (doc : Snapshot) (id top : Nat) :
    Together (Search.Walk.Like R) (Instrument.find setting doc id top ⟨a, []⟩)
      (Instrument.find setting doc id top ⟨b, []⟩) :=
  have hlike : Search.Walk.Like R ⟨a, []⟩ ⟨b, []⟩ := ⟨rfl, h⟩
  find_accord hR.accord hlike doc id top fun _ _ => trivial

theorem candidates_together (h : R a b) (doc : Snapshot) (token : Token) (shown : Text)
    (direction : Variable.Direction) :
    Together (Search.Walk.Like R) (Variable.candidates setting doc token shown direction ⟨a, []⟩)
      (Variable.candidates setting doc token shown direction ⟨b, []⟩) :=
  have hlike : Search.Walk.Like R ⟨a, []⟩ ⟨b, []⟩ := ⟨rfl, h⟩
  candidates_accord hR.accord hlike doc token shown direction fun _ _ => trivial

theorem variable_together (h : R a b) (doc : Snapshot) (token : Token) (shown : Text) :
    Together R (Variable.resolve setting doc token shown a)
      (Variable.resolve setting doc token shown b) :=
  variable_accord hR.accord h doc token shown fun _ _ => trivial

namespace Lookup

theorem hover_together (h : R a b) (path : Path) (line column : Nat) :
    Together R (hover setting a path line column) (hover setting b path line column) := by
  rcases hR.load h path (some line) with ⟨doc, s, t, ha, hb, hst⟩ | ⟨failure, ha, hb⟩
  · exact hover_accord hR.accord h path line column (fun _ _ => trivial) ⟨_, ha⟩
  · rw [hover_unloaded ha, hover_unloaded hb]
    exact ⟨rfl, h⟩

theorem definition_together (h : R a b) (path : Path) (line column : Nat) :
    Together R (definition setting a path line column)
      (definition setting b path line column) := by
  rcases hR.load h path (some line) with ⟨doc, s, t, ha, hb, hst⟩ | ⟨failure, ha, hb⟩
  · exact definition_accord hR.accord h path line column (fun _ _ => trivial) ⟨_, ha⟩
  · rw [definition_unloaded ha, definition_unloaded hb]
    exact ⟨rfl, h⟩

theorem instrumentAbove_together (h : R a b) (path : Path) (anchor id : Nat) :
    Together R (instrumentAbove setting a path anchor id)
      (instrumentAbove setting b path anchor id) :=
  instrumentAbove_accord hR.accord h path anchor id fun _ _ => trivial

theorem variableAround_together (h : R a b) (path : Path) (anchor : Nat) (token : Token) :
    Together R (variableAround setting a path anchor token)
      (variableAround setting b path anchor token) :=
  variableAround_accord hR.accord h path anchor token fun _ _ => trivial

end Lookup

end Queries

end MmlLookup
