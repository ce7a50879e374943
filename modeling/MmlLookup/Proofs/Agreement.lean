import MmlLookup.Proofs.Loading

/-!
# Files that share a key

Only what lies at places that share a key can answer for each other. A disk has
finitely many places, so whether its paths agree, and whether an unreadable file or a
directory passes for a file that was read, is decided by comparing them two by two.
-/

set_option autoImplicit false

namespace MmlLookup

namespace Disk

def textOf : Node → Option Text
  | .file file => (decode file.bytes).toOption
  | .directory _ => none

/-- A check holds of every file and whatever lies at a place of its key. -/
def everyClash (disk : Disk) (check : File → Node → Bool) : Bool :=
  disk.nodes.all fun a => disk.nodes.all fun b =>
    match a.2 with
    | .file f => a.1.key != b.1.key || check f b.2
    | .directory _ => true

def readAlike (f : File) (node : Node) : Bool :=
  match textOf (.file f), textOf node with
  | some a, some b => Text.splitLines a == Text.splitLines b
  | _, _ => true

def readTogether (f : File) (node : Node) : Bool :=
  node.modified? != some f.modified || (textOf (.file f)).isSome == (textOf node).isSome

def timeTells (f : File) : Node → Bool
  | .file g => f.modified != g.modified || f.bytes.data.toList == g.bytes.data.toList
  | .directory _ => true

def standsApart (f : File) : Node → Bool
  | .file _ => true
  | .directory modified => modified != some f.modified

theorem bytes_of_timeTells {f g : File} (h : timeTells f (.file g) = true)
    (ht : f.modified = g.modified) : f.bytes = g.bytes := by
  have hbytes : f.bytes.data.toList = g.bytes.data.toList := by simpa [timeTells, ht] using h
  exact ByteArray.ext (Array.toList_inj.1 hbytes)

theorem file_of_standsApart {f : File} {node : Node} (h : standsApart f node = true)
    (ht : node.modified? = some f.modified) : ∃ g, node = .file g := by
  cases node with
  | file g => exact ⟨g, rfl⟩
  | directory modified => simp_all [standsApart, Node.modified?]

section Clashes

variable {disk : Disk} {check : File → Node → Bool} {p q : Path} {f g : File} {trail : Trail}
  {node : Node}

theorem everyClash_located (h : disk.everyClash check = true) (hp : disk.file p = .ok f)
    (hk : p.key disk.home = q.key disk.home) (hl : disk.locate q = .ok trail)
    (hn : disk.node? trail = some node) : check f node = true := by
  obtain ⟨s, hs, hks⟩ := file_node disk p f hp
  obtain ⟨ht, hkt⟩ := located_node disk q trail node hl hn
  have hall := List.all_eq_true.1 (List.all_eq_true.1 h _ hs) _ ht
  simpa [← hks, ← hkt, hk] using hall

theorem everyClash_file (h : disk.everyClash check = true) (hp : disk.file p = .ok f)
    (hq : disk.file q = .ok g) (hk : p.key disk.home = q.key disk.home) :
    check f (.file g) = true := by
  obtain ⟨trail, hl, hn⟩ := file_located disk q g hq
  exact everyClash_located h hp hk hl hn

end Clashes

theorem read_file (disk : Disk) (path : Path) (text : Text) (modified : Nat)
    (h : disk.read path = .ok (text, modified)) :
    ∃ file, disk.file path = .ok file ∧ decode file.bytes = .ok text ∧
      file.modified = modified := by
  unfold read at h
  split at h
  · cases h
  · rename_i file hf
    split at h
    · cases h
    · rename_i hd
      cases h
      exact ⟨file, hf, hd, rfl⟩

theorem read_of_file (disk : Disk) (path : Path) (file : File) (text : Text)
    (hf : disk.file path = .ok file) (hd : decode file.bytes = .ok text) :
    disk.read path = .ok (text, file.modified) := by
  simp [read, hf, hd]

/-- A document is opened from the buffer for all its paths, or from a file for each. -/
theorem opened_cases (disk : Disk) (active : Option Buffer) (path : Path) (doc : Snapshot)
    (h : disk.opened active path = some doc) :
    (∃ buffer, (Store.mk active []).buffer? disk.home path = some buffer ∧
      doc.lines = Text.splitLines buffer.text) ∨
    ((Store.mk active []).buffer? disk.home path = none ∧ ∃ file text,
      disk.file path = .ok file ∧ decode file.bytes = .ok text ∧
        doc.lines = Text.splitLines text) := by
  cases hb : (Store.mk active []).buffer? disk.home path with
  | some buffer =>
    rw [Store.opened_of_buffer ⟨active, []⟩ disk path buffer hb] at h
    cases h
    exact Or.inl ⟨buffer, rfl, rfl⟩
  | none =>
    rw [Store.opened_of_read ⟨active, []⟩ disk path hb] at h
    obtain ⟨reading, hr, rfl⟩ := Option.map_eq_some_iff.1 h
    cases hread : disk.read path with
    | error fault => simp [hread, Except.toOption] at hr
    | ok found =>
      obtain rfl : found = reading := by simpa [hread, Except.toOption] using hr
      obtain ⟨file, hf, hd, -⟩ := read_file disk path found.1 found.2 hread
      exact Or.inr ⟨rfl, file, found.1, hf, hd, rfl⟩

theorem agrees_of_everyClash (disk : Disk) (active : Option Buffer)
    (h : disk.everyClash readAlike = true) : disk.Agrees active := by
  intro p q a b hsame ha hb
  have hk := (Path.sameDocument_iff _ _ _).1 hsame
  have hbuffer := Store.buffer?_congr ⟨active, []⟩ disk.home p q hk
  rcases opened_cases disk active p a ha with ⟨buffer, hpb, hpl⟩ | ⟨hpb, f, s, hf, hs, hpl⟩
  · rcases opened_cases disk active q b hb with ⟨other, hqb, hql⟩ | ⟨hqb, g, t, hg, ht, hql⟩
    · obtain rfl : buffer = other := by simpa [hpb, hqb] using hbuffer
      rw [hpl, hql]
    · simp [hpb, hqb] at hbuffer
  · rcases opened_cases disk active q b hb with ⟨other, hqb, hql⟩ | ⟨hqb, g, t, hg, ht, hql⟩
    · simp [hpb, hqb] at hbuffer
    · have hcheck := everyClash_file h hf hg hk
      rw [hpl, hql]
      simpa [readAlike, textOf, hs, ht, Except.toOption] using hcheck

theorem separates_of_everyClash (disk : Disk) (active : Option Buffer)
    (h : disk.everyClash readTogether = true) : disk.Separates active := by
  intro p q a hsame ha hm
  have hk := (Path.sameDocument_iff _ _ _).1 hsame
  have hbuffer := Store.buffer?_congr ⟨active, []⟩ disk.home p q hk
  rcases opened_cases disk active p a ha with ⟨buffer, hpb, hpl⟩ | ⟨hpb, f, s, hf, hs, hpl⟩
  · exact ⟨_, Store.opened_of_buffer ⟨active, []⟩ disk q buffer (hbuffer ▸ hpb)⟩
  · have hread : ∃ text, disk.read q = .ok text := by
      obtain ⟨trail, node, hl, hn, htime⟩ :=
        modified?_located disk q f.modified (hm.trans (modified?_of_file hf))
      have hcheck := everyClash_located h hf hk hl hn
      cases node with
      | directory modified => simp [readTogether, textOf, hs, htime, Except.toOption] at hcheck
      | file g =>
        have hg : disk.file q = .ok g := file_of_located hl hn
        cases hd : decode g.bytes with
        | error fault => simp [readTogether, textOf, hs, hd, htime, Except.toOption] at hcheck
        | ok text => exact ⟨(text, g.modified), by simp [read, hg, hd]⟩
    obtain ⟨text, hr⟩ := hread
    exact ⟨_, by
      rw [Store.opened_of_read ⟨active, []⟩ disk q (hbuffer ▸ hpb), hr]
      rfl⟩

/-- A disk with the given files: path, bytes and modification time. -/
def holding : List (String × ByteArray × Nat) → Disk
  | [] => empty [['w', 'o', 'r', 'k']]
  | (path, bytes, modified) :: files => (holding files).write path.toList ⟨bytes, modified⟩

end Disk

end MmlLookup
