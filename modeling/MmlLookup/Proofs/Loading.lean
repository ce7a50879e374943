import MmlLookup.Known

/-!
# What a load gives

A load answers from the open buffer, from the cache or from the disk. Only the last
kind adds to the cache, so a property of the readings of the disk is a property of
everything kept. The two assumptions under which the cache cannot be told from the
disk are stated here: paths of one document agree on its lines, and a file that
cannot be read is never taken for one that was kept.
-/

set_option autoImplicit false

namespace MmlLookup

namespace Path

theorem sameDocument_iff (home : Trail) (p q : Path) :
    p.sameDocument home q = true ↔ p.key home = q.key home := by simp [sameDocument]

theorem sameDocument_comm (home : Trail) (p q : Path) :
    p.sameDocument home q = q.sameDocument home p := by
  rw [Bool.eq_iff_iff, sameDocument_iff, sameDocument_iff, eq_comm]

theorem sameDocument_false (home : Trail) (p q : Path) :
    p.sameDocument home q = false ↔ p.key home ≠ q.key home := by simp [sameDocument]

end Path

namespace Disk

/-- A cache entry is what some path of its key reads now. -/
def Holds (disk : Disk) (key : Text) (entry : Cached) : Prop :=
  ∃ path text, Path.key disk.home path = key ∧ disk.read path = .ok (text, entry.modified) ∧
    Text.splitLines text = entry.lines

/-- The document an empty cache loads at a path, anchored at its last line. -/
def opened (disk : Disk) (active : Option Buffer) (path : Path) : Option Snapshot :=
  (Store.load ⟨active, []⟩ disk path none).toOption.map Prod.fst

def Agrees (disk : Disk) (active : Option Buffer) : Prop :=
  ∀ p q a b, p.sameDocument disk.home q = true →
    disk.opened active p = some a → disk.opened active q = some b → a.lines = b.lines

/-- A path that loads gives its document and modification time only to paths that load. -/
def Separates (disk : Disk) (active : Option Buffer) : Prop :=
  ∀ p q a, p.sameDocument disk.home q = true → disk.opened active p = some a →
    disk.modified? q = disk.modified? p → ∃ b, disk.opened active q = some b

theorem read_modified (disk : Disk) (path : Path) (text : Text) (modified : Nat)
    (h : disk.read path = .ok (text, modified)) : disk.modified? path = some modified := by
  unfold read at h
  split at h
  · cases h
  · rename_i file hf
    split at h
    · cases h
    · cases h
      exact modified?_of_file hf

end Disk

namespace Store

def Keeps (store : Store) (P : Text → Cached → Prop) : Prop :=
  ∀ entry ∈ store.cache, P entry.1 entry.2

def Mirrors (store : Store) (disk : Disk) : Prop := store.Keeps disk.Holds

theorem keeps_nil (active : Option Buffer) (P : Text → Cached → Prop) :
    (Store.mk active []).Keeps P := by intro entry h; cases h

theorem Keeps.mono {store : Store} {P Q : Text → Cached → Prop} (h : store.Keeps P)
    (hpq : ∀ key entry, P key entry → Q key entry) : store.Keeps Q :=
  fun entry he => hpq _ _ (h entry he)

theorem Keeps.erase {store : Store} {P : Text → Cached → Prop} (h : store.Keeps P) (key : Text) :
    (store.erase key).Keeps P :=
  fun entry he => h entry (List.mem_filter.1 he).1

theorem Keeps.insert {store : Store} {P : Text → Cached → Prop} (h : store.Keeps P)
    (key : Text) (entry : Cached) (he : P key entry) : (store.insert key entry).Keeps P := by
  intro other ho
  rcases List.mem_cons.1 ho with rfl | ho
  · exact he
  · exact h other (List.mem_filter.1 ho).1

theorem Keeps.cached? {store : Store} {P : Text → Cached → Prop} (h : store.Keeps P)
    (key : Text) (entry : Cached) (he : store.cached? key = some entry) : P key entry := by
  unfold Store.cached? at he
  obtain ⟨found, hf, rfl⟩ := Option.map_eq_some_iff.1 he
  have hk : found.1 = key := by simpa using List.find?_some hf
  have hp := h found (List.mem_of_find?_eq_some hf)
  rwa [hk] at hp

theorem buffer?_congr (store : Store) (home : Trail) (p q : Path)
    (h : p.key home = q.key home) : store.buffer? home p = store.buffer? home q := by
  simp [buffer?, Path.sameDocument, h]

inductive Served (store : Store) (disk : Disk) (path : Path) : List Text → Store → Prop
  | buffer (buffer : Buffer) : store.buffer? disk.home path = some buffer →
      Served store disk path (Text.splitLines buffer.text) store
  | kept (entry : Cached) : store.buffer? disk.home path = none →
      store.cached? (path.key disk.home) = some entry →
      disk.modified? path = some entry.modified → Served store disk path entry.lines store
  | read (text : Text) (modified : Nat) : store.buffer? disk.home path = none →
      disk.read path = .ok (text, modified) →
      Served store disk path (Text.splitLines text)
        (store.insert (path.key disk.home) ⟨Text.splitLines text, modified⟩)

theorem fresh?_some (store : Store) (disk : Disk) (path : Path) (lines : List Text)
    (h : store.fresh? disk path = some lines) :
    ∃ entry, store.cached? (path.key disk.home) = some entry ∧
      disk.modified? path = some entry.modified ∧ entry.lines = lines := by
  unfold fresh? at h
  split at h
  · rename_i entry modified hc hm
    split at h
    · rename_i heq
      cases h
      exact ⟨entry, hc, by rw [hm, heq], rfl⟩
    · cases h
  · cases h

theorem lines_served (store : Store) (disk : Disk) (path : Path) (lines : List Text)
    (after : Store) (h : store.lines disk path = .ok (lines, after)) :
    Served store disk path lines after := by
  unfold Store.lines at h
  split at h
  · rename_i buffer hb
    cases h
    exact .buffer buffer hb
  · rename_i hb
    split at h
    · rename_i kept hf
      cases h
      obtain ⟨entry, hc, hm, rfl⟩ := fresh?_some store disk path lines hf
      exact .kept entry hb hc hm
    · split at h
      · cases h
      · rename_i text modified hr
        cases h
        exact .read text modified hb hr

theorem load_served (store : Store) (disk : Disk) (path : Path) (anchor : Option Nat)
    (doc : Snapshot) (after : Store) (h : store.load disk path anchor = .ok (doc, after)) :
    doc = Snapshot.make path doc.lines anchor ∧ Served store disk path doc.lines after := by
  unfold load at h
  split at h
  · cases h
  · rename_i lines _ hl
    cases h
    exact ⟨rfl, lines_served store disk path lines after hl⟩

theorem Served.keeps {store after : Store} {disk : Disk} {path : Path} {lines : List Text}
    {P : Text → Cached → Prop} (h : Served store disk path lines after) (hk : store.Keeps P)
    (hp : ∀ key entry, disk.Holds key entry → P key entry) : after.Keeps P := by
  cases h with
  | buffer buffer hb => exact hk
  | kept entry hb hc hm => exact hk
  | read text modified hb hr => exact hk.insert _ _ (hp _ _ ⟨path, text, rfl, hr, rfl⟩)

theorem Served.active {store after : Store} {disk : Disk} {path : Path} {lines : List Text}
    (h : Served store disk path lines after) : after.active = store.active := by
  cases h <;> rfl

theorem opened_of_buffer (store : Store) (disk : Disk) (path : Path) (buffer : Buffer)
    (h : store.buffer? disk.home path = some buffer) :
    disk.opened store.active path =
      some (Snapshot.make path (Text.splitLines buffer.text) none) := by
  have hb : (Store.mk store.active []).buffer? disk.home path = some buffer := h
  simp [Disk.opened, load, lines, hb, Except.toOption]

theorem opened_of_read (store : Store) (disk : Disk) (path : Path)
    (h : store.buffer? disk.home path = none) :
    disk.opened store.active path =
      (disk.read path).toOption.map fun reading =>
        Snapshot.make path (Text.splitLines reading.1) none := by
  have hb : (Store.mk store.active []).buffer? disk.home path = none := h
  cases hr : disk.read path <;>
    simp [Disk.opened, load, lines, hb, fresh?, cached?, hr, Except.toOption]

theorem opened_path (disk : Disk) (active : Option Buffer) (path : Path) (doc : Snapshot)
    (h : disk.opened active path = some doc) : doc = Snapshot.make path doc.lines none := by
  unfold Disk.opened at h
  cases hl : (Store.mk active []).load disk path none with
  | error failure => simp [hl, Except.toOption] at h
  | ok loaded =>
    simp only [hl, Except.toOption, Option.map_some, Option.some.injEq] at h
    subst h
    exact (load_served _ disk path none loaded.1 loaded.2 hl).1

theorem opened_nonempty (disk : Disk) (active : Option Buffer) (path : Path) (doc : Snapshot)
    (h : disk.opened active path = some doc) : 0 < doc.lines.length := by
  have hsplit (text : Text) : 0 < (Text.splitLines text).length :=
    List.length_pos_iff.2 (Text.splitLines_ne_nil text)
  cases hb : (Store.mk active []).buffer? disk.home path with
  | some buffer =>
    obtain rfl : Snapshot.make path (Text.splitLines buffer.text) none = doc :=
      Option.some.inj ((opened_of_buffer _ disk path buffer hb).symm.trans h)
    exact hsplit buffer.text
  | none =>
    have ho := (opened_of_read _ disk path hb).symm.trans h
    obtain ⟨reading, -, rfl⟩ := Option.map_eq_some_iff.1 ho
    exact hsplit reading.1

/-! ## Loading with a cache that mirrors the disk -/

section Mirroring

variable {store after : Store} {disk : Disk} {path : Path} {doc : Snapshot}

/-- Whatever is served, some path of the document gives it without a cache. -/
theorem Served.origin {lines : List Text} (h : Served store disk path lines after)
    (hm : store.Mirrors disk) :
    ∃ source doc, source.sameDocument disk.home path = true ∧
      disk.opened store.active source = some doc ∧ doc.lines = lines := by
  cases h with
  | buffer buffer hb =>
    exact ⟨path, _, by simp [Path.sameDocument], opened_of_buffer store disk path buffer hb, rfl⟩
  | kept entry hb hc ht =>
    obtain ⟨source, text, hk, hr, hl⟩ := Keeps.cached? hm _ _ hc
    have hs : store.buffer? disk.home source = none := by
      rw [buffer?_congr store disk.home source path hk, hb]
    refine ⟨source, Snapshot.make source (Text.splitLines text) none,
      (Path.sameDocument_iff _ _ _).2 hk, ?_, hl⟩
    rw [opened_of_read store disk source hs, hr]
    rfl
  | read text modified hb hr =>
    refine ⟨path, Snapshot.make path (Text.splitLines text) none, by simp [Path.sameDocument],
      ?_, rfl⟩
    rw [opened_of_read store disk path hb, hr]
    rfl

theorem load_mirrors (hm : store.Mirrors disk)
    (h : store.load disk path none = .ok (doc, after)) :
    after.Mirrors disk ∧ after.active = store.active := by
  have hs := (load_served store disk path none doc after h).2
  exact ⟨hs.keeps hm fun _ _ he => he, hs.active⟩

theorem load_of_opened (hm : store.Mirrors disk) (ha : disk.Agrees store.active)
    (h : disk.opened store.active path = some doc) :
    ∃ after, store.load disk path none = .ok (doc, after) := by
  have hdoc := opened_path disk store.active path doc h
  cases hl : store.load disk path none with
  | ok loaded =>
    obtain ⟨hmake, hs⟩ := load_served store disk path none loaded.1 loaded.2 hl
    obtain ⟨source, other, hsame, ho, hlines⟩ := hs.origin hm
    have heq : loaded.1.lines = doc.lines := by rw [← hlines, ha _ _ _ _ hsame ho h]
    refine ⟨loaded.2, ?_⟩
    rw [hdoc, ← heq, ← hmake]
  | error failure =>
    -- a load fails only where nothing opens: neither the buffer nor the cache refuses
    exfalso
    unfold load at hl
    split at hl
    · rename_i hn
      unfold Store.lines at hn
      split at hn
      · cases hn
      · rename_i hb
        split at hn
        · cases hn
        · split at hn
          · rename_i hr
            rw [opened_of_read store disk path hb, hr] at h
            cases h
          · cases hn
    · cases hl

theorem Served.opens {lines : List Text} (h : Served store disk path lines after)
    (hm : store.Mirrors disk) (hs : disk.Separates store.active) :
    ∃ doc, disk.opened store.active path = some doc := by
  cases h with
  | buffer buffer hb => exact ⟨_, opened_of_buffer store disk path buffer hb⟩
  | kept entry hb hc ht =>
    obtain ⟨source, text, hk, hr, -⟩ := Keeps.cached? hm _ _ hc
    have hsb : store.buffer? disk.home source = none := by
      rw [buffer?_congr store disk.home source path hk, hb]
    have ho : disk.opened store.active source =
        some (Snapshot.make source (Text.splitLines text) none) := by
      rw [opened_of_read store disk source hsb, hr]
      rfl
    -- the entry was served because the two paths report one modification time
    refine hs source path _ ((Path.sameDocument_iff _ _ _).2 hk) ho ?_
    rw [ht, Disk.read_modified disk source text _ hr]
  | read text modified hb hr =>
    exact ⟨_, by rw [opened_of_read store disk path hb, hr]; rfl⟩

theorem opened_of_load (hm : store.Mirrors disk) (ha : disk.Agrees store.active)
    (hs : disk.Separates store.active) (h : store.load disk path none = .ok (doc, after)) :
    disk.opened store.active path = some doc := by
  obtain ⟨found, hf⟩ := (load_served store disk path none doc after h).2.opens hm hs
  obtain ⟨_, hl⟩ := load_of_opened hm ha hf
  rw [h] at hl
  cases hl
  exact hf

end Mirroring

end Store

end MmlLookup
