import MmlLookup.Store

/-!
# Documents that can be loaded

A document loads only if the open buffer stands for it or something lies where its
path leads. So the keys of the places of a disk, with the key of the open buffer,
bound the documents a search can enter. Kept lines are served for whatever reports
their time, so the keys of directories count too. Loading leaves the open buffer
alone, so the bound holds throughout a search.
-/

set_option autoImplicit false

namespace MmlLookup

namespace Disk

def nodeKeys (disk : Disk) : List Text := disk.nodes.map (·.1.key)

/-- Resolution agrees with the reading of a path by its text alone. -/
theorem descend_fold (disk : Disk) (pieces : List Text) (trail target : Trail)
    (h : disk.descend trail pieces = .ok target) : target = pieces.foldl Trail.step trail := by
  induction pieces generalizing trail with
  | nil => simpa [descend, eq_comm] using h
  | cons piece pieces ih =>
    rw [descend] at h
    split at h
    · cases h
    · cases h
    · split at h
      · cases h
      · exact ih _ h

theorem locate_descend {disk : Disk} {path : Path} {trail : Trail}
    (h : disk.locate path = .ok trail) :
    path ≠ [] ∧ disk.descend (Trail.start disk.home path) path.pieces = .ok trail := by
  unfold locate at h
  split at h
  · cases h
  · split at h
    · cases h
    · rename_i hne
      split at h
      · cases h
      · exact ⟨hne, h⟩

theorem locate_ofPath (disk : Disk) (path : Path) (trail : Trail)
    (h : disk.locate path = .ok trail) : path ≠ [] ∧ trail = Trail.ofPath disk.home path :=
  ⟨(locate_descend h).1, descend_fold disk _ _ _ (locate_descend h).2⟩

theorem node?_mem (disk : Disk) (trail : Trail) (node : Node)
    (h : disk.node? trail = some node) : (trail, node) ∈ disk.nodes := by
  unfold node? at h
  obtain ⟨entry, he, rfl⟩ := Option.map_eq_some_iff.1 h
  have hp := List.find?_some he
  have hm := List.mem_of_find?_eq_some he
  simp only [decide_eq_true_eq] at hp
  subst hp
  exact hm

theorem located_node (disk : Disk) (path : Path) (trail : Trail) (node : Node)
    (hl : disk.locate path = .ok trail) (hn : disk.node? trail = some node) :
    (trail, node) ∈ disk.nodes ∧ path.key disk.home = trail.key := by
  obtain ⟨hne, rfl⟩ := locate_ofPath disk path trail hl
  exact ⟨node?_mem disk _ _ hn, by simp [Path.key, hne]⟩

theorem file_located (disk : Disk) (path : Path) (file : File) (h : disk.file path = .ok file) :
    ∃ trail, disk.locate path = .ok trail ∧ disk.node? trail = some (.file file) := by
  unfold Disk.file at h
  split at h
  · cases h
  · rename_i trail hl
    split at h
    · cases h
    · cases h
    · rename_i hn
      cases h
      exact ⟨trail, hl, hn⟩

theorem file_of_located {disk : Disk} {path : Path} {trail : Trail} {file : File}
    (hl : disk.locate path = .ok trail) (hn : disk.node? trail = some (.file file)) :
    disk.file path = .ok file := by simp [Disk.file, hl, hn]

theorem file_node (disk : Disk) (path : Path) (file : File) (h : disk.file path = .ok file) :
    ∃ trail, (trail, Node.file file) ∈ disk.nodes ∧ path.key disk.home = trail.key := by
  obtain ⟨trail, hl, hn⟩ := file_located disk path file h
  exact ⟨trail, located_node disk path trail _ hl hn⟩

theorem modified?_of_file {disk : Disk} {path : Path} {file : File}
    (h : disk.file path = .ok file) : disk.modified? path = some file.modified := by
  obtain ⟨trail, hl, hn⟩ := file_located disk path file h
  simp [modified?, hl, hn, Node.modified?]

theorem modified?_located (disk : Disk) (path : Path) (modified : Nat)
    (h : disk.modified? path = some modified) : ∃ trail node, disk.locate path = .ok trail ∧
      disk.node? trail = some node ∧ node.modified? = some modified := by
  unfold modified? at h
  split at h
  · cases h
  · rename_i trail hl
    obtain ⟨node, hn, hm⟩ := Option.bind_eq_some_iff.1 h
    exact ⟨trail, node, hl, hn, hm⟩

theorem file_key (disk : Disk) (path : Path) (file : File)
    (h : disk.file path = .ok file) : path.key disk.home ∈ disk.nodeKeys := by
  obtain ⟨trail, hn, hk⟩ := file_node disk path file h
  exact List.mem_map.2 ⟨_, hn, hk.symm⟩

theorem modified?_key (disk : Disk) (path : Path) (modified : Nat)
    (h : disk.modified? path = some modified) : path.key disk.home ∈ disk.nodeKeys := by
  obtain ⟨trail, node, hl, hn, -⟩ := modified?_located disk path modified h
  obtain ⟨hnode, hk⟩ := located_node disk path trail node hl hn
  exact List.mem_map.2 ⟨_, hnode, hk.symm⟩

theorem read_key (disk : Disk) (path : Path) (result : Text × Nat)
    (h : disk.read path = .ok result) : path.key disk.home ∈ disk.nodeKeys := by
  unfold read at h
  split at h
  · cases h
  · rename_i file hf
    exact file_key disk path file hf

end Disk

namespace Store

/-- The keys of the documents that can be loaded, and perhaps more. -/
def knownKeys (store : Store) (disk : Disk) : List Text :=
  (store.active.map fun buffer => buffer.path.key disk.home).toList ++ disk.nodeKeys

theorem lines_active (store : Store) (disk : Disk) (path : Path) (lines : List Text)
    (after : Store) (h : store.lines disk path = .ok (lines, after)) :
    after.active = store.active := by
  unfold Store.lines at h
  split at h
  · cases h; rfl
  · split at h
    · cases h; rfl
    · split at h
      · cases h
      · cases h; rfl

theorem lines_known (store : Store) (disk : Disk) (path : Path) (lines : List Text)
    (after : Store) (h : store.lines disk path = .ok (lines, after)) :
    path.key disk.home ∈ store.knownKeys disk := by
  unfold Store.lines at h
  unfold knownKeys
  split at h
  · rename_i buffer hb
    unfold buffer? at hb
    obtain ⟨ha, hs⟩ := Option.filter_eq_some_iff.1 hb
    simp only [Path.sameDocument, beq_iff_eq] at hs
    simp [ha, hs]
  · refine List.mem_append_right _ ?_
    split at h
    · rename_i hf
      unfold fresh? at hf
      split at hf
      · rename_i hm
        exact Disk.modified?_key disk path _ hm
      · cases hf
    · split at h
      · cases h
      · rename_i hr
        exact Disk.read_key disk path _ hr

theorem load_active (store : Store) (disk : Disk) (path : Path) (anchor : Option Nat)
    (doc : Snapshot) (after : Store) (h : store.load disk path anchor = .ok (doc, after)) :
    after.active = store.active := by
  unfold load at h
  split at h
  · cases h
  · rename_i hl
    cases h
    exact lines_active store disk path _ _ hl

theorem load_path (store : Store) (disk : Disk) (path : Path) (anchor : Option Nat)
    (doc : Snapshot) (after : Store) (h : store.load disk path anchor = .ok (doc, after)) :
    doc.path = path := by
  unfold load at h
  split at h
  · cases h
  · cases h
    rfl

theorem load_known (store : Store) (disk : Disk) (path : Path) (anchor : Option Nat)
    (doc : Snapshot) (after : Store) (h : store.load disk path anchor = .ok (doc, after)) :
    path.key disk.home ∈ store.knownKeys disk := by
  unfold load at h
  split at h
  · cases h
  · rename_i hl
    exact lines_known store disk path _ _ hl

theorem knownKeys_congr (a b : Store) (disk : Disk) (h : a.active = b.active) :
    a.knownKeys disk = b.knownKeys disk := by simp [knownKeys, h]

end Store

end MmlLookup
