import MmlLookup.Proofs.Agreement
import MmlLookup.Proofs.Termination

/-!
# The spellings of one file

In a tree without links a path is followed piece by piece through directories that
exist. Where it ends is what its text alone spells, however it winds through the tree
and above the working directory or the root. So all paths that lead to one file have
one key: they share its slot in the cache and the open buffer, and a search that has
entered the file by one of them does not enter it by another.
-/

set_option autoImplicit false

namespace MmlLookup

namespace Disk

/-- Following the pieces of a path from a place. A piece that names nothing is skipped.
A name, and the piece that names the enclosing directory, are followed from a directory
that exists; above the root lies the root. -/
inductive Resolves (disk : Disk) : Trail → List Text → Trail → Prop
  | here (place : Trail) : Resolves disk place [] place
  | idle (place target : Trail) (piece : Text) (pieces : List Text) :
      Path.isIdle piece = true → Resolves disk place pieces target →
      Resolves disk place (piece :: pieces) target
  | up (place target : Trail) (pieces : List Text) :
      disk.DirectoryAt place → Resolves disk place.tail pieces target →
      Resolves disk place (Path.up :: pieces) target
  | down (place target : Trail) (name : Text) (pieces : List Text) :
      Path.isIdle name = false → name ≠ Path.up → disk.DirectoryAt place →
      Resolves disk (name :: place) pieces target →
      Resolves disk place (name :: pieces) target

def LeadsTo (disk : Disk) (path : Path) (target : Trail) : Prop :=
  disk.DirectoryAt (Trail.start disk.home path) ∧
    disk.Resolves (Trail.start disk.home path) path.pieces target

section Following

variable {disk : Disk} {place target : Trail} {pieces : List Text} {path : Path} {file : File}

theorem Resolves.fold (h : disk.Resolves place pieces target) :
    target = pieces.foldl Trail.step place := by
  induction h with
  | here place => rfl
  | idle place target piece pieces hi _ ih =>
    rw [ih, List.foldl_cons]
    congr 1
    simp [Trail.step, hi]
  | up place target pieces _ _ ih =>
    rw [ih, List.foldl_cons]
    congr 1
  | down place target name pieces hi hu _ _ ih =>
    rw [ih, List.foldl_cons]
    congr 1
    simp [Trail.step, hi, hu]

theorem LeadsTo.ofPath (h : disk.LeadsTo path target) : target = Trail.ofPath disk.home path :=
  h.2.fold

theorem descend_resolves (h : disk.descend place pieces = .ok target) :
    disk.Resolves place pieces target := by
  induction pieces generalizing place with
  | nil =>
    cases h
    exact .here _
  | cons piece pieces ih =>
    rw [descend] at h
    split at h
    · cases h
    · cases h
    · rename_i hn
      split at h
      · cases h
      · have hrest := ih h
        unfold Trail.step at hrest
        by_cases hi : Path.isIdle piece = true
        · rw [if_pos hi] at hrest
          exact .idle _ _ _ _ hi hrest
        · rw [if_neg hi] at hrest
          by_cases hu : piece = Path.up
          · subst hu
            rw [if_pos rfl] at hrest
            exact .up _ _ _ ⟨_, hn⟩ hrest
          · rw [if_neg hu] at hrest
            exact .down _ _ _ _ (eq_false_of_ne_true hi) hu ⟨_, hn⟩ hrest

theorem descend_directory (hne : pieces ≠ []) (h : disk.descend place pieces = .ok target) :
    disk.DirectoryAt place := by
  cases pieces with
  | nil => exact absurd rfl hne
  | cons piece pieces =>
    rw [descend] at h
    split at h
    · cases h
    · cases h
    · rename_i hn
      exact ⟨_, hn⟩

theorem locate_leadsTo (h : disk.locate path = .ok target) : disk.LeadsTo path target := by
  have hdescend := (locate_descend h).2
  exact ⟨descend_directory (Text.splitOn_ne_nil '/' path) hdescend, descend_resolves hdescend⟩

theorem LeadsTo.ne_nil (h : disk.LeadsTo path target) (hf : disk.node? target = some (.file file)) :
    path ≠ [] := by
  rintro rfl
  have hhome : target = disk.home := h.ofPath
  obtain ⟨modified, hstart⟩ : disk.DirectoryAt disk.home := h.1
  rw [hhome, hstart] at hf
  cases hf

theorem LeadsTo.key (h : disk.LeadsTo path target) (hf : disk.node? target = some (.file file)) :
    path.key disk.home = target.key := by
  rw [Path.key, if_neg (h.ne_nil hf), ← h.ofPath]

theorem LeadsTo.modified? (h : disk.LeadsTo path target)
    (hf : disk.node? target = some (.file file)) (modified : Nat)
    (hm : disk.modified? path = some modified) : modified = file.modified := by
  obtain ⟨trail, node, hl, hn, hmodified⟩ := modified?_located disk path modified hm
  have htrail : trail = target := (locate_leadsTo hl).ofPath.trans h.ofPath.symm
  rw [htrail, hf] at hn
  cases hn
  exact (Option.some.inj hmodified).symm

end Following

end Disk

namespace Store

section Sharing

variable {store after last : Store} {disk : Disk} {p q : Path} {doc again : Snapshot}
  {anchor other : Option Nat}

theorem load_modified (hb : store.buffer? disk.home q = none)
    (h : store.load disk q other = .ok (again, last)) :
    ∃ modified, disk.modified? q = some modified := by
  have hserved := (load_served store disk q other again last h).2
  generalize again.lines = lines at hserved
  cases hserved with
  | buffer buffer hb' => simp [hb] at hb'
  | kept entry _ _ hm => exact ⟨_, hm⟩
  | read text modified _ hr => exact ⟨_, Disk.read_modified disk q text modified hr⟩

theorem load_of_buffer (buffer : Buffer) (hb : store.buffer? disk.home q = some buffer) :
    store.load disk q other =
      .ok (Snapshot.make q (Text.splitLines buffer.text) other, store) := by
  simp [load, Store.lines, hb]

theorem load_of_kept (entry : Cached) (hb : store.buffer? disk.home q = none)
    (hc : store.cached? (q.key disk.home) = some entry)
    (hm : disk.modified? q = some entry.modified) :
    store.load disk q other = .ok (Snapshot.make q entry.lines other, store) := by
  simp [load, Store.lines, hb, fresh?, hc, hm]

theorem cached?_insert (store : Store) (key : Text) (entry : Cached) :
    (store.insert key entry).cached? key = some entry := by
  simp [cached?, insert]

/-- What was loaded by one path of a file is there for every other that loads at all. -/
theorem load_shared (hk : p.key disk.home = q.key disk.home)
    (ht : ∀ a b, disk.modified? p = some a → disk.modified? q = some b → a = b)
    (hp : store.load disk p anchor = .ok (doc, after))
    (hq : after.load disk q other = .ok (again, last)) :
    again.lines = doc.lines ∧ last = after := by
  have hserved := (load_served store disk p anchor doc after hp).2
  have hsame := buffer?_congr after disk.home p q hk
  generalize doc.lines = lines at hserved ⊢
  have hkept (entry : Cached) (hb : after.buffer? disk.home p = none)
      (hc : after.cached? (p.key disk.home) = some entry)
      (hm : disk.modified? p = some entry.modified) : again.lines = entry.lines ∧ last = after := by
    rw [hsame] at hb
    rw [hk] at hc
    obtain ⟨modified, hmodified⟩ := load_modified hb hq
    obtain rfl := ht _ _ hm hmodified
    rw [load_of_kept entry hb hc hmodified] at hq
    cases hq
    exact ⟨rfl, rfl⟩
  cases hserved with
  | buffer buffer hb =>
    rw [hsame] at hb
    rw [load_of_buffer buffer hb] at hq
    cases hq
    exact ⟨rfl, rfl⟩
  | kept entry hb hc hm => exact hkept entry hb hc hm
  | read text modified hb hr =>
    exact hkept _ hb (cached?_insert _ _ _) (Disk.read_modified disk p text modified hr)

end Sharing

end Store

theorem Search.hasEntered_of_key (walk : Search.Walk) (home : Trail) {p q : Path}
    (hk : p.key home = q.key home) : walk.hasEntered home p = walk.hasEntered home q := by
  simp [Search.Walk.hasEntered, Path.sameDocument, hk]

/-- Two paths are one document: whatever is done by one of them is done for the other. -/
structure OneDocument (disk : Disk) (p q : Path) : Prop where
  identity : p.sameDocument disk.home q = true
  slot : ∀ store : Store,
    store.cached? (p.key disk.home) = store.cached? (q.key disk.home) ∧
      store.invalidate disk.home p = store.invalidate disk.home q
  /-- What is loaded by one is loaded by the other, and nothing more is kept for it. -/
  shared : ∀ (store after last : Store) (anchor other : Option Nat) (doc again : Snapshot),
    store.load disk p anchor = .ok (doc, after) → after.load disk q other = .ok (again, last) →
      again.lines = doc.lines ∧ last = after
  buffer : ∀ (store : Store) (text : Text) (anchor : Option Nat),
    (store.setActive ⟨p, text⟩).load disk q anchor =
      .ok (Snapshot.make q (Text.splitLines text) anchor, store.setActive ⟨p, text⟩)
  entered : ∀ (environment : Option Path) (goal : Search.Goal) (agenda : List Search.Site)
    (walk : Search.Walk), walk.hasEntered disk.home p = true →
      ∃ entered, (Search.run ⟨disk, environment⟩ goal agenda walk).2.visited =
        walk.visited ++ entered ∧ q ∉ entered
  started : ∀ (environment : Option Path) (goal : Search.Goal) (doc : Snapshot)
    (lines : List Nat) (shown : Text) (walk : Search.Walk), doc.path = q →
      walk.hasEntered disk.home p = true →
      Search.start ⟨disk, environment⟩ goal doc lines shown walk = (.ok .nothing, walk)

theorem oneDocument_of_key (disk : Disk) (p q : Path) (hk : p.key disk.home = q.key disk.home)
    (ht : ∀ a b, disk.modified? p = some a → disk.modified? q = some b → a = b) :
    OneDocument disk p q where
  identity := (Path.sameDocument_iff _ _ _).2 hk
  slot := by
    intro store
    simp [Store.invalidate, hk]
  shared := fun _ _ _ _ _ _ _ hp hq => Store.load_shared hk ht hp hq
  buffer := by
    intro store text anchor
    apply Store.load_of_buffer ⟨p, text⟩
    simp [Store.buffer?, Store.setActive, Path.sameDocument, hk]
  entered := by
    intro environment goal agenda walk hv
    obtain ⟨entered, hsince⟩ := Search.run_since ⟨disk, environment⟩ goal agenda walk
    refine ⟨entered, hsince.visited, fun hq => ?_⟩
    have hfresh : walk.hasEntered disk.home q = false := hsince.fresh q hq
    rw [← Search.hasEntered_of_key walk disk.home hk, hv] at hfresh
    cases hfresh
  started := by
    intro environment goal doc lines shown walk hdoc hv
    rw [Search.hasEntered_of_key walk disk.home hk, ← hdoc] at hv
    simp [Search.start, hv]

/-- All paths that lead to one file are one document. -/
theorem spellings_oneDocument (disk : Disk) (p q : Path) (target : Trail) (file : File)
    (hp : disk.LeadsTo p target) (hq : disk.LeadsTo q target)
    (hf : disk.node? target = some (.file file)) : OneDocument disk p q := by
  apply oneDocument_of_key
  · rw [hp.key hf, hq.key hf]
  · intro a b ha hb
    rw [hp.modified? hf a ha, hq.modified? hf b hb]

def crossing : Disk := .holding
  [("song.mml", "#Include b.mml".toUTF8, 1), ("env/b.mml", "#Include ../song.mml".toUTF8, 2)]

/-- A way through the directory below, and a way over the root. -/
theorem spellings_oneDocument_crossing :
    crossing.LeadsTo "env/.././/song.mml".toList ["song.mml".toList, "work".toList] ∧
      crossing.LeadsTo "../../../work/env/./../song.mml".toList
        ["song.mml".toList, "work".toList] ∧
      OneDocument crossing "env/.././/song.mml".toList
        "../../../work/env/./../song.mml".toList := by
  have hbelow : crossing.LeadsTo "env/.././/song.mml".toList
      ["song.mml".toList, "work".toList] := Disk.locate_leadsTo (by decide +kernel)
  have habove : crossing.LeadsTo "../../../work/env/./../song.mml".toList
      ["song.mml".toList, "work".toList] := Disk.locate_leadsTo (by decide +kernel)
  exact ⟨hbelow, habove, spellings_oneDocument crossing _ _ _ ⟨"#Include b.mml".toUTF8, 1⟩
    hbelow habove rfl⟩

end MmlLookup
