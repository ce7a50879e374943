import MmlLookup.Proofs.Differing

/-!
# Lines below the anchor

The search for an instrument enters the queried document at its anchor and reads
upward. When directives lead back to it, under whatever spelling, it has been entered
and is not read again. So nothing that stands below the anchor is ever seen, unless the
document is taken for a bank, since banks are read whole and are not entered.
-/

set_option autoImplicit false

namespace MmlLookup

namespace Search

/-! ## The same lines in another document -/

/-- Two lines that say the same, and are shown the same way when something is found. -/
structure Site.Same (site other : Site) : Prop where
  text : other.text = site.text
  bank : other.inBank = site.inBank
  shown : other.descriptor = site.descriptor

section Sameness

variable {setting : Setting} {goal : Goal} {site other : Site}

theorem Site.Same.refl (site : Site) : site.Same site := ⟨rfl, rfl, rfl⟩

theorem Site.Same.follow (h : site.Same other) (walk : Walk) :
    follow setting goal other walk = follow setting goal site walk := by
  unfold Search.follow directiveOf
  rw [h.text, h.bank]

theorem run_same (agenda others : List Site) (walk : Walk)
    (h : List.Forall₂ Site.Same agenda others) :
    run setting goal others walk = run setting goal agenda walk := by
  induction agenda, walk using run.induct setting goal generalizing others with
  | case1 walk =>
    cases h
    rfl
  | case2 walk site rest definition hs =>
    cases h with
    | cons hsame _ => rw [run_cons, run_cons, hsame.text, hs, hsame.shown]
  | case3 walk site rest definition hs _ _ _ ih =>
    cases h with
    | cons hsame hrest => rw [run_cons, run_cons, hsame.text, hs, hsame.shown, ih _ hrest]
  | case4 walk site rest hs ih =>
    cases h with
    | cons hsame hrest => rw [run_cons, run_cons, hsame.text, hs, ih _ hrest]
  | case5 walk site rest hs failure hf =>
    cases h with
    | cons hsame _ => rw [run_cons, run_cons, hsame.text, hs, hsame.follow, hf]
  | case6 walk site rest hs ahead after hf ih =>
    cases h with
    | cons hsame hrest =>
      have hahead : List.Forall₂ Site.Same ahead ahead :=
        List.forall₂_same.2 fun site _ => .refl site
      simp only [run_cons, hsame.text, hs, hsame.follow, hf]
      exact ih _ (List.rel_append hahead hrest)

theorem sites_same {doc twin : Snapshot} {lines : List Nat} (shown : Text)
    (hpath : twin.path = doc.path) (hlines : ∀ line ∈ lines, twin.lineAt line = doc.lineAt line) :
    List.Forall₂ Site.Same (sites doc lines shown) (sites twin lines shown) := by
  rw [sites, sites, List.forall₂_map_left_iff, List.forall₂_map_right_iff, List.forall₂_same]
  intro line hl
  refine ⟨hlines line hl, rfl, ?_⟩
  funext definition perfect
  simp only [Site.descriptor, hpath]

end Sameness

/-! ## A document that has been entered -/

section Entered

variable {disk twin : Disk} {active other : Option Buffer} {environment : Option Path}
  {path : Path} {goal : Goal} {site : Site} {walk here : Walk}

/-- The document has been entered in both runs, which keep the same of all others. -/
def Shut (home : Trail) (active other : Option Buffer) (path : Path) (walk here : Walk) : Prop :=
  walk.hasEntered home path = true ∧ walk.Like (Store.AgreeOff home active other path) here

theorem follow_entered (setting : Setting) {directory name : Text}
    (hd : directiveOf goal site = some (.inclusion name))
    (he : setting.environment = some directory)
    (hv : walk.hasEntered setting.disk.home ((Directive.inclusion name).target directory) = true) :
    ∃ store, follow setting goal site walk = .ok ([], { walk with store }) ∧
      (store = walk.store ∨ ∃ lines, Store.Served walk.store setting.disk
        ((Directive.inclusion name).target directory) lines store) := by
  unfold follow openTarget
  simp only [hd, he]
  cases hl : walk.store.load setting.disk ((Directive.inclusion name).target directory) none with
  | error failure => exact ⟨walk.store, rfl, .inl rfl⟩
  | ok loaded =>
    obtain ⟨hdoc, hserved⟩ := Store.load_served _ _ _ _ loaded.1 loaded.2 hl
    have hpath : loaded.1.path = (Directive.inclusion name).target directory := by rw [hdoc]; rfl
    refine ⟨loaded.2, ?_, .inr ⟨_, hserved⟩⟩
    dsimp only
    rw [hpath]
    exact if_pos hv

theorem hasEntered_follow {setting : Setting} {ahead : List Site} {after : Walk}
    (hs : goal.sign site.text = .silent) (hf : follow setting goal site walk = .ok (ahead, after))
    (home : Trail) (hv : walk.hasEntered home path = true) : after.hasEntered home path = true := by
  have hturn : Turn setting goal ([site], walk) (ahead ++ [], after) := .silent _ _ _ _ _ hs hf
  obtain ⟨entered, he, hk⟩ := List.any_eq_true.1 hv
  exact List.any_eq_true.2 ⟨entered, hturn.grows.subset he, hk⟩

theorem follow_shut (h : DifferAt disk twin active other path)
    (hs : goal.sign site.text = .silent)
    (hbank : ∀ name directory, directiveOf goal site = some (.bank name) →
      environment = some directory →
        ((Directive.bank name).target directory).sameDocument disk.home path = false)
    (hshut : Shut disk.home active other path walk here) :
    Alike (Shut disk.home active other path) (follow ⟨disk, environment⟩ goal site walk)
      (follow ⟨twin, environment⟩ goal site here) := by
  obtain ⟨hv, hlike⟩ := hshut
  by_cases hback : ∃ name directory, directiveOf goal site = some (.inclusion name) ∧
      environment = some directory ∧
        ((Directive.inclusion name).target directory).sameDocument disk.home path = true
  · -- back to the document: it may load in one run only, and is not entered in either
    obtain ⟨name, directory, hd, he, hsame⟩ := hback
    have hk := (Path.sameDocument_iff _ _ _).1 hsame
    have hv' : here.hasEntered twin.home ((Directive.inclusion name).target directory) = true := by
      rw [h.home, ← hlike.hasEntered, hasEntered_of_key walk disk.home hk, hv]
    obtain ⟨s, hf, hs'⟩ := follow_entered ⟨disk, environment⟩ hd he
      (by rwa [hasEntered_of_key walk disk.home hk])
    obtain ⟨t, hf', ht⟩ := follow_entered ⟨twin, environment⟩ hd he hv'
    refine .inl ⟨[], _, _, hf, hf', hv, hlike.1, ?_⟩
    have hfirst : Store.AgreeOff disk.home active other path s here.store := by
      rcases hs' with rfl | ⟨lines, hserved⟩
      · exact hlike.2
      · exact hlike.2.load_first disk hk hserved
    rcases ht with rfl | ⟨lines, hserved⟩
    · exact hfirst
    · exact hfirst.load_second h.home hk hserved
  · have haway (target : Path) (hsends : sends ⟨disk, environment⟩ goal site = some target) :
        target.sameDocument disk.home path = false := by
      obtain ⟨directory, directive, he, hd, rfl⟩ := sends_some hsends
      cases directive with
      | bank name => exact hbank name directory hd he
      | inclusion name =>
        exact eq_false_of_ne_true fun hsame => hback ⟨name, directory, hd, he, hsame⟩
    rcases follow_lockstep (h.accord environment) hlike site hs haway with
      ⟨ahead, after, last, hf, hf', hlike'⟩ | hfails
    · exact .inl ⟨ahead, after, last, hf, hf', hasEntered_follow hs hf _ hv, hlike'⟩
    · exact .inr hfails

end Entered

end Search

namespace Lookup

open Search (Setting)

def Reaches (setting : Setting) (store : Store) (path : Path) (anchor id : Nat)
    (site : Search.Site) : Prop :=
  ∃ doc after walk, store.load setting.disk path (some anchor) = .ok (doc, after) ∧
    Search.Takes setting (Instrument.goal id)
      (Search.opening setting.disk.home doc (doc.upward 0) doc.stem ⟨after, []⟩) site walk

structure DifferBelow (disk twin : Disk) (active other : Option Buffer) (path : Path)
    (anchor : Nat) : Prop extends DifferAt disk twin active other path where
  lines : ∃ above below hidden, above.length = anchor + 1 ∧
    Store.reading disk active path = .ok (above ++ below) ∧
    Store.reading twin other path = .ok (above ++ hidden)

section Below

variable {disk twin : Disk} {active other : Option Buffer} {path : Path} {anchor : Nat}

theorem load_reading {lines : List Text} (h : Store.reading disk active path = .ok lines)
    (anchor : Option Nat) :
    ∃ after, (Store.mk active []).load disk path anchor =
        .ok (Snapshot.make path lines anchor, after) ∧
      Store.Served ⟨active, []⟩ disk path lines after := by
  unfold Store.reading at h
  cases hl : (Store.mk active []).lines disk path with
  | error failure => simp [hl, Except.map] at h
  | ok served =>
    obtain rfl : served.1 = lines := by simpa [hl, Except.map] using h
    exact ⟨served.2, by simp only [Store.load, hl], Store.lines_served _ _ _ _ _ hl⟩

theorem make_above {above below : List Text} (hlength : above.length = anchor + 1) :
    (Snapshot.make path (above ++ below) (some anchor)).anchor = anchor := by
  simp only [Snapshot.make, List.length_append]
  omega

theorem lineAt_above {above below : List Text} {line : Nat} (hl : line < above.length)
    (anchor : Option Nat) :
    (Snapshot.make path (above ++ below) anchor).lineAt line = above.getD line [] := by
  simp only [Snapshot.lineAt, Snapshot.make, List.getD_eq_getElem?_getD,
    List.getElem?_append_left hl]

theorem sites_above {above : List Text} (below hidden : List Text)
    (hlength : above.length = anchor + 1) (shown : Text) :
    List.Forall₂ Search.Site.Same
      (Search.sites (.make path (above ++ below) (some anchor))
        ((Snapshot.make path (above ++ below) (some anchor)).upward 0) shown)
      (Search.sites (.make path (above ++ hidden) (some anchor))
        ((Snapshot.make path (above ++ hidden) (some anchor)).upward 0) shown) := by
  have hupward : (Snapshot.make path (above ++ hidden) (some anchor)).upward 0 =
      (Snapshot.make path (above ++ below) (some anchor)).upward 0 := by
    simp only [Snapshot.upward, make_above hlength]
  rw [hupward]
  refine Search.sites_same shown rfl fun line hline => ?_
  have hle := ((Snapshot.mem_upward _ 0 line).1 hline).2
  rw [make_above hlength] at hle
  have hlt : line < above.length := by omega
  rw [lineAt_above hlt, lineAt_above hlt]

theorem resolve_run (setting : Setting) (doc : Snapshot) (id : Nat) (store : Store) :
    (Instrument.resolve setting doc id store).1 =
      (Search.run setting (Instrument.goal id) (Search.sites doc (doc.upward 0) doc.stem)
        ⟨store, [doc.path]⟩).1.map (·.candidates.head?) := by
  simp only [Instrument.resolve, Instrument.find, Search.start, Search.Walk.hasEntered,
    List.any_nil, Bool.false_eq_true, if_false]
  rfl

/-- What stands below the anchor makes no difference. -/
theorem instrumentAbove_blind (h : DifferBelow disk twin active other path anchor)
    (environment : Option Path) (id : Nat)
    (hbanks : ∀ site name directory,
      Reaches ⟨disk, environment⟩ ⟨active, []⟩ path anchor id site →
        Search.directiveOf (Instrument.goal id) site = some (.bank name) →
          environment = some directory →
            ((Directive.bank name).target directory).sameDocument disk.home path = false) :
    (instrumentAbove ⟨twin, environment⟩ ⟨other, []⟩ path anchor id).1 =
      (instrumentAbove ⟨disk, environment⟩ ⟨active, []⟩ path anchor id).1 := by
  obtain ⟨above, below, hidden, hlength, hreading, hreading'⟩ := h.lines
  obtain ⟨s, hs, hserved⟩ := load_reading hreading (some anchor)
  obtain ⟨t, ht, hserved'⟩ := load_reading hreading' (some anchor)
  let doc : Snapshot := .make path (above ++ below) (some anchor)
  have hstores : Store.AgreeOff disk.home active other path s t :=
    ((Store.AgreeOff.empty disk.home).load_first disk rfl hserved).load_second h.home rfl hserved'
  -- once entered, the document gives no more lines but as a bank, so its slots do not matter
  have hshut : Search.Shut disk.home active other path ⟨s, [path]⟩ ⟨t, [path]⟩ :=
    ⟨by simp [Search.Walk.hasEntered, Path.sameDocument], rfl, hstores⟩
  have hrun : Together (Search.Shut disk.home active other path)
      (Search.run ⟨disk, environment⟩ (Instrument.goal id)
        (Search.sites doc (doc.upward 0) doc.stem) ⟨s, [path]⟩)
      (Search.run ⟨twin, environment⟩ (Instrument.goal id)
        (Search.sites doc (doc.upward 0) doc.stem) ⟨t, [path]⟩) := by
    refine Search.run_lockstep _ _ _ (fun site here there htakes hsilent hshut => ?_) hshut
    refine Search.follow_shut h.toDifferAt hsilent (fun name directory => ?_) hshut
    exact hbanks site name directory ⟨doc, s, here, hs, htakes⟩
  simp only [instrumentAbove, hs, ht, resolve_run]
  show Except.map _ (Search.run _ _ _ _).1 = Except.map _ (Search.run _ _ _ _).1
  rw [Search.run_same _ _ _ (sites_above below hidden hlength _)]
  exact congrArg _ hrun.1.symm

end Below

/-! ## A song in a circle -/

def bankAway (setting : Setting) (goal : Search.Goal) (path : Path) (site : Search.Site) : Bool :=
  match Search.directiveOf goal site, setting.environment with
  | some (.bank name), some directory =>
    !((Directive.bank name).target directory).sameDocument setting.disk.home path
  | _, _ => true

theorem banks_away (setting : Setting) (store : Store) (path : Path) (anchor id n : Nat)
    {doc : Snapshot} {after : Store}
    (hl : store.load setting.disk path (some anchor) = .ok (doc, after))
    (h : (Search.taken setting (Instrument.goal id) n (Search.sites doc (doc.upward 0) doc.stem)
      ⟨after, [doc.path]⟩).any (·.all (bankAway setting (Instrument.goal id) path)) = true)
    (site : Search.Site) (name : Text) (directory : Path)
    (hr : Reaches setting store path anchor id site)
    (hd : Search.directiveOf (Instrument.goal id) site = some (.bank name))
    (he : setting.environment = some directory) :
    ((Directive.bank name).target directory).sameDocument setting.disk.home path = false := by
  obtain ⟨doc', after', walk, hl', htakes⟩ := hr
  rw [hl] at hl'
  cases hl'
  obtain ⟨sites, hsites, hall⟩ := (Option.any_eq_true _ _).1 h
  have hmem := Search.mem_taken n _ sites _ hsites htakes
  simpa [bankAway, hd, he] using List.all_eq_true.1 hall site hmem

def circling : Disk := .holding
  [("song.mml", "#Include b.mml\n@3 low".toUTF8, 1),
    ("env/b.mml", "#FFFile c.FF\n#Include ../SONG.mml\n#Include ../env/./../song.mml".toUTF8, 2),
    ("env/c.MML", "@4 bell".toUTF8, 3)]

def recircling : Disk :=
  circling.write "song.mml".toList ⟨"#Include b.mml\n@3 high\n@1 drum".toUTF8, 9⟩

theorem differBelow_circling :
    DifferBelow circling recircling none none "song.mml".toList 0 := by
  have hplace : circling.locate "song.mml".toList = .ok ["song.mml".toList, "work".toList] := rfl
  have hfile : ¬ circling.DirectoryAt ["song.mml".toList, "work".toList] := by
    rintro ⟨modified, h⟩
    cases h
  have hput : recircling = circling.put ["song.mml".toList, "work".toList]
      (.file ⟨"#Include b.mml\n@3 high\n@1 drum".toUTF8, 9⟩) := by
    rw [recircling, Disk.write_located hfile hplace, Disk.makeRoom_of_some rfl]
  exact
    { home := by rw [hput, Disk.put_home]
      files := fun q hq => by rw [hput]; exact Disk.file_put_off hfile hplace hq
      times := fun q hq => by
        rw [hput]
        exact Disk.modified?_put hfile _ (Disk.locate_off hplace hq)
      texts := fun _ _ => rfl
      lines := ⟨["#Include b.mml".toList], ["@3 low".toList], ["@3 high".toList, "@1 drum".toList],
        rfl, rfl, rfl⟩ }

/-- The song is met twice more on the way, under other spellings, and is not entered again. -/
theorem instrumentAbove_blind_circling :
    DifferBelow circling recircling none none "song.mml".toList 0 ∧
      (∀ site name directory,
        Reaches ⟨circling, some "env".toList⟩ ⟨none, []⟩ "song.mml".toList 0 3 site →
          Search.directiveOf (Instrument.goal 3) site = some (.bank name) →
            some "env".toList = some directory →
              ((Directive.bank name).target directory).sameDocument circling.home
                "song.mml".toList = false) ∧
      (instrumentAbove ⟨recircling, some "env".toList⟩ ⟨none, []⟩ "song.mml".toList 0 3).1 =
        (instrumentAbove ⟨circling, some "env".toList⟩ ⟨none, []⟩ "song.mml".toList 0 3).1 := by
  have hbanks := banks_away ⟨circling, some "env".toList⟩ ⟨none, []⟩ "song.mml".toList 0 3 9 rfl
    (by decide +kernel)
  exact ⟨differBelow_circling, hbanks,
    instrumentAbove_blind differBelow_circling (some "env".toList) 3 hbanks⟩

end Lookup

end MmlLookup
