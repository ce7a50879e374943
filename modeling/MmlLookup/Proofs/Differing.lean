import MmlLookup.Proofs.Framing
import MmlLookup.Proofs.Lockstep

/-!
# Settings that differ in one document

Two disks, each perhaps with an open buffer, may differ in one document and give the
same of all others. Stores that are used beside them keep the same in every slot but
that document's. The disks need not fail alike: a file put where there was nothing is
in the way of paths that lead through it, and these fail before and after, each time
for a reason of its own.
-/

set_option autoImplicit false

namespace MmlLookup

namespace Disk

variable {disk twin : Disk} {place trail target : Trail} {node : Node} {pieces : List Text}
  {path : Path} {file : File}

theorem read_congr (h : (twin.file path).toOption = (disk.file path).toOption) :
    (twin.read path).toOption = (disk.read path).toOption := by
  unfold read
  cases ht : twin.file path <;> cases hd : disk.file path <;> simp_all [Except.toOption]

/-! ## A file put at a place -/

theorem put_home : (disk.put place node).home = disk.home := rfl

theorem node?_put : (disk.put place node).node? place = some node := by
  simp [put, node?]

theorem node?_put_of_ne (h : trail ≠ place) :
    (disk.put place node).node? trail = disk.node? trail := by
  have hfind : (disk.nodes.filter (·.1 ≠ place)).find? (·.1 = trail) =
      disk.nodes.find? (·.1 = trail) := by
    rw [List.find?_filter]
    congr 1
    funext found
    by_cases hf : found.1 = trail
    · simp [hf, h]
    · simp [hf]
  simp only [put, node?, List.find?_cons]
  rw [decide_eq_false (Ne.symm h)]
  exact congrArg _ hfind

/-- The two ways a file put at a place may be met: it makes no difference, or it stands
where there was nothing. -/
inductive Met {α : Type} (disk : Disk) (place : Trail) (before after : Except Fault α) : Prop
  | same : after = before → Met disk place before after
  | inTheWay : disk.node? place = none → before = .error .noEntry → after = .error .notDirectory →
      Met disk place before after

variable (hplace : ¬ disk.DirectoryAt place)
include hplace

theorem descend_put : Met disk place (disk.descend trail pieces)
    ((disk.put place (.file file)).descend trail pieces) := by
  induction pieces generalizing trail with
  | nil => exact .same rfl
  | cons piece pieces ih =>
    rw [descend, descend]
    by_cases ht : trail = place
    · subst ht
      rw [node?_put]
      cases hn : disk.node? trail with
      | none => exact .inTheWay hn rfl rfl
      | some found =>
        cases found with
        | file => exact .same rfl
        | directory modified => exact absurd ⟨modified, hn⟩ hplace
    · rw [node?_put_of_ne ht]
      rcases disk.node? trail with _ | _ | _
      · exact .same rfl
      · exact .same rfl
      · dsimp only
        split
        · exact .same rfl
        · exact ih

theorem locate_put (path : Path) (file : File) : Met disk place (disk.locate path)
    ((disk.put place (.file file)).locate path) := by
  unfold locate
  split
  · exact .same rfl
  · split
    · exact .same rfl
    · split
      · exact .same rfl
      · exact descend_put hplace

theorem file_put (file : File) (h : disk.locate path ≠ .ok place) : Met disk place (disk.file path)
    ((disk.put place (.file file)).file path) := by
  unfold Disk.file
  rcases locate_put hplace path file with hsame | ⟨hn, hbefore, hafter⟩
  · rw [hsame]
    cases hl : disk.locate path with
    | error fault => exact .same rfl
    | ok trail =>
      dsimp only
      rw [node?_put_of_ne fun heq => h (by rw [hl, heq])]
      exact .same rfl
  · rw [hbefore, hafter]
    exact .inTheWay hn rfl rfl

theorem modified?_put (file : File) (h : disk.locate path ≠ .ok place) :
    (disk.put place (.file file)).modified? path = disk.modified? path := by
  unfold Disk.modified?
  rcases locate_put hplace path file with hsame | ⟨-, hbefore, hafter⟩
  · rw [hsame]
    cases hl : disk.locate path with
    | error fault => rfl
    | ok trail =>
      dsimp only
      rw [node?_put_of_ne fun heq => h (by rw [hl, heq])]
  · rw [hbefore, hafter]

omit hplace in
theorem locate_off {q : Path} (h : disk.locate path = .ok place)
    (hq : q.sameDocument disk.home path = false) : disk.locate q ≠ .ok place := by
  intro hplace
  obtain ⟨hne, heq⟩ := disk.locate_ofPath path place h
  obtain ⟨hne', heq'⟩ := disk.locate_ofPath q place hplace
  refine (Path.sameDocument_false _ _ _).1 hq ?_
  rw [Path.key, Path.key, if_neg hne, if_neg hne', ← heq, ← heq']

theorem file_put_off {q : Path} (h : disk.locate path = .ok place)
    (hq : q.sameDocument disk.home path = false) :
    ((disk.put place (.file file)).file q).toOption = (disk.file q).toOption := by
  rcases file_put hplace file (locate_off h hq) with hsame | ⟨-, hbefore, hafter⟩
  · rw [hsame]
  · rw [hbefore, hafter]
    rfl

theorem locate_put_of_ok (h : disk.locate path = .ok target) :
    (disk.put place (.file file)).locate path = .ok target := by
  rcases locate_put hplace path file with hsame | ⟨-, hbefore, -⟩
  · rw [hsame, h]
  · rw [hbefore] at h
    cases h

theorem file_put_of_ok (h : disk.locate path = .ok target) (hne : target ≠ place) :
    (disk.put place (.file file)).file path = disk.file path := by
  unfold Disk.file
  rw [locate_put_of_ok hplace h, h]
  dsimp only
  rw [node?_put_of_ne hne]

omit hplace in
theorem makeWay_of_descend {last : Text}
    (h : disk.descend trail (pieces ++ [last]) = .ok target) :
    disk.makeWay trail pieces = some (disk, pieces.foldl Trail.step trail) := by
  induction pieces generalizing trail with
  | nil => rfl
  | cons piece pieces ih =>
    rw [List.cons_append, descend] at h
    split at h
    · cases h
    · cases h
    · split at h
      · cases h
      · obtain ⟨modified, hnext⟩ := descend_directory (by simp) h
        rw [makeWay, hnext]
        exact ih h

omit hplace in
theorem makeRoom_of_some (h : disk.node? place = some node) : disk.makeRoom place = disk := by
  simp [makeRoom, h]

theorem write_located (h : disk.locate path = .ok place) :
    disk.write path file = (disk.makeRoom place).put place (.file file) := by
  have hdescend := (locate_descend h).2
  unfold write
  cases hp : path.pieces.reverse with
  | nil => exact absurd (List.reverse_eq_nil_iff.1 hp) (Text.splitOn_ne_nil '/' path)
  | cons name above =>
    have hpieces : path.pieces = above.reverse ++ [name] := by
      rw [← List.reverse_reverse path.pieces, hp, List.reverse_cons]
    rw [hpieces] at hdescend
    have hend :
        place = (above.reverse.foldl Trail.step (Trail.start disk.home path)).step name := by
      rw [descend_fold disk _ _ _ hdescend, List.foldl_append]
      rfl
    simp only [makeWay_of_descend hdescend, ← hend]
    split
    · rename_i modified hn
      exact absurd ⟨modified, hn⟩ hplace
    · rfl

end Disk

/-! ## Two settings -/

/-- All paths of other documents have the same file, if any, the same modification time
and the same open text. -/
structure DifferAt (disk twin : Disk) (active other : Option Buffer) (path : Path) : Prop where
  home : twin.home = disk.home
  files : ∀ q, q.sameDocument disk.home path = false →
    (twin.file q).toOption = (disk.file q).toOption
  times : ∀ q, q.sameDocument disk.home path = false → twin.modified? q = disk.modified? q
  texts : ∀ q, q.sameDocument disk.home path = false →
    ((Store.mk other []).buffer? disk.home q).map (·.text) =
      ((Store.mk active []).buffer? disk.home q).map (·.text)

/-- Each store has its own open buffer, and they keep the same of all other documents. -/
structure Store.AgreeOff (home : Trail) (active other : Option Buffer) (path : Path)
    (a b : Store) : Prop where
  first : a.active = active
  second : b.active = other
  slots : ∀ key, path.key home ≠ key → b.cached? key = a.cached? key

section Differing

open Store (AgreeOff)

variable {disk twin : Disk} {active other : Option Buffer} {path q : Path} {a b s t : Store}
  {texts : List Text}

theorem Store.AgreeOff.empty (home : Trail) :
    AgreeOff home active other path ⟨active, []⟩ ⟨other, []⟩ where
  first := rfl
  second := rfl
  slots := fun _ _ => rfl

theorem Store.AgreeOff.load_first (disk : Disk) (h : AgreeOff disk.home active other path a b)
    (hq : q.key disk.home = path.key disk.home) (hs : Served a disk q texts s) :
    AgreeOff disk.home active other path s b where
  first := hs.active.trans h.first
  second := h.second
  slots := fun key hk => by rw [hs.elsewhere (hq.symm ▸ hk), h.slots key hk]

theorem Store.AgreeOff.load_second (h : AgreeOff disk.home active other path a b)
    (hhome : twin.home = disk.home) (hq : q.key disk.home = path.key disk.home)
    (ht : Served b twin q texts t) : AgreeOff disk.home active other path a t where
  first := h.first
  second := ht.active.trans h.second
  slots := fun key hk => by rw [ht.elsewhere (by rwa [hhome, hq]), h.slots key hk]

/-- Another document gives the same lines on both sides, or loads on neither. -/
theorem DifferAt.lines (h : DifferAt disk twin active other path)
    (hab : AgreeOff disk.home active other path a b)
    (hq : q.sameDocument disk.home path = false) :
    Matched (AgreeOff disk.home active other path) (a.lines disk q) (b.lines twin q) := by
  have hne : path.key disk.home ≠ q.key disk.home :=
    fun heq => (Path.sameDocument_false _ _ _).1 hq heq.symm
  have htexts : (b.buffer? disk.home q).map (·.text) = (a.buffer? disk.home q).map (·.text) := by
    simpa only [Store.buffer?, hab.first, hab.second] using h.texts q hq
  unfold Store.lines
  rw [h.home]
  cases ha : a.buffer? disk.home q with
  | some buffer =>
    rw [ha] at htexts
    obtain ⟨buffer', hb, htext⟩ := Option.map_eq_some_iff.1 htexts
    rw [hb]
    exact .inl ⟨Text.splitLines buffer.text, a, b, rfl, by simp only [htext], hab⟩
  | none =>
    have hb : b.buffer? disk.home q = none := by simpa [ha] using htexts
    have hfresh : b.fresh? twin q = a.fresh? disk q := by
      simp only [Store.fresh?, h.home, hab.slots _ hne, h.times q hq]
    rw [hb, hfresh]
    cases hf : a.fresh? disk q with
    | some lines => exact .inl ⟨lines, a, b, rfl, rfl, hab⟩
    | none =>
      have hread := Disk.read_congr (h.files q hq)
      cases hr : disk.read q with
      | error fault =>
        cases hr' : twin.read q with
        | error other => exact .inr ⟨⟨_, rfl⟩, _, rfl⟩
        | ok reading => simp [hr, hr', Except.toOption] at hread
      | ok reading =>
        cases hr' : twin.read q with
        | error fault => simp [hr, hr', Except.toOption] at hread
        | ok other =>
          obtain rfl : other = reading := by simpa [hr, hr', Except.toOption] using hread
          -- both sides keep the reading under one key, and agree off the document as before
          refine .inl ⟨_, _, _, rfl, rfl, hab.first, hab.second, fun key hk => ?_⟩
          by_cases heq : key = q.key disk.home
          · rw [heq, Store.cached?_insert, Store.cached?_insert]
          · rw [Store.cached?_insert_of_ne b _ _ _ heq, Store.cached?_insert_of_ne a _ _ _ heq]
            exact hab.slots key hk

theorem DifferAt.accord (h : DifferAt disk twin active other path) (environment : Option Path) :
    Accord ⟨disk, environment⟩ ⟨twin, environment⟩ (fun q => q.sameDocument disk.home path = false)
      (AgreeOff disk.home active other path) where
  home := h.home
  environment := rfl
  lines := fun _ _ _ hq hab => h.lines hab hq

end Differing

end MmlLookup
