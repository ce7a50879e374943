import MmlLookup.Command.Run
import MmlLookup.Proofs.Differing
import MmlLookup.Proofs.Escaping

/-!
# Unsaved text

An open buffer takes the place of its document wherever a question meets it. What is
answered is what would be answered if the text had been saved and no buffer were open,
as long as the spellings of the document that the question uses lead to the saved file.
One thing tells the two apart: a file that is saved where there was none stands in the
way of paths that lead through its name, and a question asked of such a path fails with
another fault than before.
-/

set_option autoImplicit false

namespace MmlLookup

open Search (Setting)

namespace Disk

def encode (text : Text) : ByteArray := (String.ofList text).toUTF8

theorem decode_encode (text : Text) : decode (encode text) = .ok text := by
  have hvalid : (encode text).IsValidUTF8 := (String.ofList text).isValidUTF8
  unfold decode String.fromUTF8?
  rw [dif_pos hvalid]
  exact congrArg _ String.toList_ofList

def saved (disk : Disk) (place : Trail) (text : Text) (modified : Nat) : Disk :=
  disk.put place (.file ⟨encode text, modified⟩)

end Disk

def Query.request? (stdin : Bool) : Query → Option Command.Request
  | .hover path line column => some (.hover path line column stdin)
  | .definition path line column => some (.definition path line column stdin)
  | _ => none

/-- The paths of the document that are loaded lead to the saved file. -/
def Straight (disk : Disk) (path : Path) (place : Trail) (loads : Path → Prop) : Prop :=
  ∀ q, loads q → q.sameDocument disk.home path = true → disk.locate q = .ok place

/-- A store over the saved file, which keeps nothing else of the document, and a store
beside which the buffer is open. -/
def Store.Saved (home : Trail) (path : Path) (text : Text) (modified : Nat) (a b : Store) : Prop :=
  AgreeOff home none (some ⟨path, text⟩) path a b ∧
    ∀ entry, a.cached? (path.key home) = some entry → entry = ⟨Text.splitLines text, modified⟩

section Saving

variable {disk : Disk} {path q : Path} {place : Trail} {text : Text} {modified : Nat}
  {a b : Store}

theorem lines_saved (hab : Store.Saved disk.home path text modified a b)
    (hk : q.key disk.home = path.key disk.home)
    (hq : (disk.saved place text modified).locate q = .ok place) :
    ∃ after, a.lines (disk.saved place text modified) q = .ok (Text.splitLines text, after) ∧
      Store.Saved disk.home path text modified after b := by
  have hf : (disk.saved place text modified).file q = .ok ⟨Disk.encode text, modified⟩ := by
    unfold Disk.file
    rw [hq]
    simp only [Disk.saved, Disk.node?_put]
  have hr : (disk.saved place text modified).read q = .ok (text, modified) :=
    Disk.read_of_file _ _ _ _ hf (Disk.decode_encode text)
  have hb : a.buffer? (disk.saved place text modified).home q = none := by
    rw [Store.buffer?, hab.1.first]
    rfl
  cases hfresh : a.fresh? (disk.saved place text modified) q with
  | some lines =>
    obtain ⟨entry, hc, -, rfl⟩ := Store.fresh?_some _ _ _ _ hfresh
    rw [hab.2 entry (hk ▸ hc)] at hfresh
    exact ⟨a, by simp only [Store.lines, hb, hfresh], hab⟩
  | none =>
    have hl : a.lines (disk.saved place text modified) q = .ok (Text.splitLines text, a.insert
        (q.key (disk.saved place text modified).home) ⟨Text.splitLines text, modified⟩) := by
      simp only [Store.lines, hb, hfresh, hr]
    refine ⟨_, hl, hab.1.load_first (disk.saved place text modified) hk
      (Store.lines_served _ _ _ _ _ hl), fun entry hc => ?_⟩
    rw [← hk] at hc
    exact (Option.some.inj ((Store.cached?_insert _ _ _).symm.trans hc)).symm

theorem Store.Saved.empty : Store.Saved disk.home path text modified .empty
    (Store.empty.setActive ⟨path, text⟩) :=
  ⟨.empty disk.home, fun _ hc => nomatch hc⟩

theorem load_saved (hq : q.sameDocument disk.home path = true)
    (hlocate : (disk.saved place text modified).locate q = .ok place) (anchor : Option Nat) :
    ∃ loaded, Store.empty.load (disk.saved place text modified) q anchor = .ok loaded := by
  have hempty : Store.Saved disk.home path text modified .empty
      (Store.empty.setActive ⟨path, text⟩) := .empty
  obtain ⟨after, hl, -⟩ := lines_saved hempty ((Path.sameDocument_iff _ _ _).1 hq) hlocate
  exact ⟨(Snapshot.make q (Text.splitLines text) anchor, after), by simp only [Store.load, hl]⟩

theorem lines_unsaved (hab : Store.Saved disk.home path text modified a b)
    (hq : q.sameDocument disk.home path = true) :
    b.lines disk q = .ok (Text.splitLines text, b) := by
  have hb : b.buffer? disk.home q = some ⟨path, text⟩ := by
    rw [Path.sameDocument_comm] at hq
    simp [Store.buffer?, hab.1.second, Option.filter, hq]
  simp only [Store.lines, hb]

variable (hplace : disk.locate path = .ok place) (hfile : ¬ disk.DirectoryAt place)
include hplace hfile

theorem differAt_saved :
    DifferAt (disk.saved place text modified) disk none (some ⟨path, text⟩) path where
  home := rfl
  files := fun q hq => (Disk.file_put_off hfile hplace hq).symm
  times := fun q hq => (Disk.modified?_put hfile _ (Disk.locate_off hplace hq)).symm
  texts := by
    intro q hq
    rw [Path.sameDocument_comm] at hq
    simp [Store.buffer?, Option.filter, hq]

theorem accord_saved (environment : Option Path) :
    Accord ⟨disk.saved place text modified, environment⟩ ⟨disk, environment⟩
      (fun q => q.sameDocument disk.home path = true →
        (disk.saved place text modified).locate q = .ok place)
      (Store.Saved disk.home path text modified) where
  home := rfl
  environment := rfl
  lines := by
    intro a b q hstraight hab
    cases hq : q.sameDocument disk.home path with
    | true =>
      obtain ⟨after, hl, hafter⟩ :=
        lines_saved hab ((Path.sameDocument_iff _ _ _).1 hq) (hstraight hq)
      exact .inl ⟨_, after, b, hl, lines_unsaved hab hq, hafter⟩
    | false =>
      rcases (differAt_saved hplace hfile).lines hab.1 hq with
        ⟨lines, s, t, ha, hb, hst⟩ | hfails
      · have hserved := Store.lines_served a _ q lines s ha
        have hslot : s.cached? (path.key disk.home) = a.cached? (path.key disk.home) :=
          hserved.elsewhere ((Path.sameDocument_false _ _ _).1 hq)
        exact .inl ⟨lines, s, t, ha, hb, hst, fun entry hc => hab.2 entry (hslot ▸ hc)⟩
      · exact .inr hfails

theorem ask_saved (environment : Option Path) (query : Query)
    (hstraight : Straight (disk.saved place text modified) path place
      (query.Loads ⟨disk.saved place text modified, environment⟩ .empty))
    (hl : ∀ q line, query.cursor? = some (q, line) →
      ∃ loaded, Store.empty.load (disk.saved place text modified) q (some line) = .ok loaded) :
    (query.ask ⟨disk, environment⟩ (Store.empty.setActive ⟨path, text⟩)).1 =
      (query.ask ⟨disk.saved place text modified, environment⟩ .empty).1 := by
  exact (Query.ask_accord (accord_saved hplace hfile environment) .empty query hstraight hl).1.symm

/-- A document that does not load once the text is saved did not load before. It did so
for the same reason, or else the saved file stands in its way. -/
theorem load_unsaved {line : Nat} {failure : Failure}
    (hstraight : q.sameDocument disk.home path = true →
      (disk.saved place text modified).locate q = .ok place)
    (hl : Store.empty.load (disk.saved place text modified) q (some line) = .error failure) :
    (Store.empty.setActive ⟨path, text⟩).load disk q (some line) = .error failure ∨
      disk.node? place = none ∧ failure = .unreadable q .notDirectory ∧
        (Store.empty.setActive ⟨path, text⟩).load disk q (some line) =
          .error (.unreadable q .noEntry) := by
  obtain ⟨fault, ⟨-, -, hr⟩, rfl⟩ := (Store.load_error_iff _ _ _ _ _).1 hl
  have hq : q.sameDocument disk.home path = false := by
    refine eq_false_of_ne_true fun hq => ?_
    obtain ⟨loaded, hok⟩ := load_saved hq (hstraight hq) (some line)
    rw [hok] at hl
    cases hl
  have hb : (Store.empty.setActive ⟨path, text⟩).buffer? disk.home q = none := by
    rw [Path.sameDocument_comm] at hq
    simp [Store.buffer?, Store.setActive, Option.filter, hq]
  have hfails (fault : Fault) (hr : disk.read q = .error fault) :
      (Store.empty.setActive ⟨path, text⟩).load disk q (some line) =
        .error (.unreadable q fault) :=
    (Store.load_error_iff _ _ _ _ _).2 ⟨fault, ⟨hb, rfl, hr⟩, rfl⟩
  rcases Disk.file_put hfile ⟨Disk.encode text, modified⟩ (Disk.locate_off hplace hq) with
    hsame | ⟨hn, hbefore, hafter⟩
  · exact .inl (hfails fault (by rw [← hr, Disk.read, Disk.read, Disk.saved, hsame]))
  · have hfault : fault = .notDirectory := by
      rw [Disk.read, Disk.saved, hafter] at hr
      exact (Except.error.inj hr).symm
    exact .inr ⟨hn, by rw [hfault], hfails .noEntry (by rw [Disk.read, hbefore])⟩

/-! ## The settings of the working directory -/

omit hplace in
theorem settings_saved (hhome : disk.DirectoryAt disk.home)
    (hsettings : place ≠ Settings.fileName :: disk.home) :
    Settings.load (disk.saved place text modified) ['.'] = Settings.load disk ['.'] := by
  have hl : disk.locate (Path.join ['.'] Settings.fileName) =
      .ok (Settings.fileName :: disk.home) := by
    have hpieces : Path.pieces (Path.join ['.'] Settings.fileName) =
        [['.'], Settings.fileName] := by decide +kernel
    have hstart : Trail.start disk.home (Path.join ['.'] Settings.fileName) = disk.home := rfl
    unfold Disk.locate
    rw [if_neg (by decide +kernel), if_neg (by decide +kernel), if_neg (by decide +kernel), hpieces,
      hstart]
    have hdot : disk.home.step ['.'] = disk.home := rfl
    have hname : disk.home.step Settings.fileName = Settings.fileName :: disk.home := rfl
    obtain ⟨changed, hhome⟩ := hhome
    simp only [Disk.descend, hhome, hdot, hname]
    rw [if_neg (by decide +kernel), if_neg (by decide +kernel)]
  have hread : (disk.saved place text modified).read (Path.join ['.'] Settings.fileName) =
      disk.read (Path.join ['.'] Settings.fileName) := by
    rw [Disk.read, Disk.read, Disk.saved, Disk.file_put_of_ok hfile hl hsettings.symm]
  rw [Settings.load, Settings.load, hread]

/-! ## Commands -/

omit hplace hfile in
theorem workspace_unsaved (environment : Option Path) :
    Command.workspace disk (Disk.encode text) environment path true =
      (Settings.load disk ['.']).map fun settings =>
        ⟨⟨disk, (settings.withEnvironment environment).environment⟩,
          Store.empty.setActive ⟨path, text⟩⟩ := by
  unfold Command.workspace
  cases Settings.load disk ['.'] with
  | error failure => rfl
  | ok settings => simp only [if_pos, Disk.decode_encode, Except.map]

omit hplace hfile in
theorem workspace_closed (input : ByteArray) (environment : Option Path) :
    Command.workspace disk input environment path false =
      (Settings.load disk ['.']).map fun settings =>
        ⟨⟨disk, (settings.withEnvironment environment).environment⟩, .empty⟩ := by
  unfold Command.workspace
  cases Settings.load disk ['.'] <;> rfl

theorem answer_saved {query : Query} {line : Nat} (environment : Option Path) (input : ByteArray)
    (hhome : disk.DirectoryAt disk.home)
    (hsettings : place ≠ Settings.fileName :: disk.home)
    (hc : query.cursor? = some (path, line))
    (hstraight : ∀ settings, Settings.load disk ['.'] = .ok settings →
      Straight (disk.saved place text modified) path place (query.Loads
        ⟨disk.saved place text modified, (settings.withEnvironment environment).environment⟩
        .empty)) :
    (query.request? true).map (Command.answer disk (Disk.encode text) environment) =
      (query.request? false).map
        (Command.answer (disk.saved place text modified) input environment) := by
  have hlocate : (disk.saved place text modified).locate path = .ok place :=
    Disk.locate_put_of_ok hfile hplace
  have hself : path.sameDocument disk.home path = true := by simp [Path.sameDocument]
  have hload : ∃ loaded,
      Store.empty.load (disk.saved place text modified) path (some line) = .ok loaded :=
    load_saved hself hlocate (some line)
  have hask (settings : Settings) (hs : Settings.load disk ['.'] = .ok settings) :=
    ask_saved hplace hfile (settings.withEnvironment environment).environment query
      (hstraight settings hs) fun q line' hq => by
        cases hc.symm.trans hq
        exact hload
  cases query with
  | hover q line' column =>
    cases hc
    simp only [Query.request?, Option.map_some, Command.answer, workspace_unsaved,
      workspace_closed, settings_saved hfile hhome hsettings]
    cases hs : Settings.load disk ['.'] with
    | error failure => rfl
    | ok settings =>
      have hanswer := Query.Answer.hover.inj (hask settings hs)
      exact congrArg (fun shown => some do return (← shown).map Command.Answer.hover) hanswer
  | definition q line' column =>
    cases hc
    simp only [Query.request?, Option.map_some, Command.answer, workspace_unsaved,
      workspace_closed, settings_saved hfile hhome hsettings]
    cases hs : Settings.load disk ['.'] with
    | error failure => rfl
    | ok settings =>
      have hanswer := Query.Answer.location.inj (hask settings hs)
      exact congrArg (fun place => some do return (← place).map Command.Answer.location) hanswer
  | instrument | «variable» | find | candidates | resolve => cases hc

end Saving

/-! ## Open or saved -/

structure AsSaved (disk : Disk) (path : Path) (place : Trail) (text : Text) (modified : Nat) :
    Prop where
  /-- Writing the text gives that disk, where a new file makes room for itself. -/
  written : disk.write path ⟨Disk.encode text, modified⟩ =
    (disk.makeRoom place).saved place text modified
  /-- Every question has the same answer, but for one asked from a cursor in a document
  whose path leads through the name of a new file. -/
  asked : ∀ environment (query : Query),
    Straight (disk.saved place text modified) path place
      (query.Loads ⟨disk.saved place text modified, environment⟩ .empty) →
    (query.ask ⟨disk, environment⟩ (Store.empty.setActive ⟨path, text⟩)).1 =
        (query.ask ⟨disk.saved place text modified, environment⟩ .empty).1 ∨
      disk.node? place = none ∧ ∃ q line, query.cursor? = some (q, line) ∧
        (query.ask ⟨disk, environment⟩ (Store.empty.setActive ⟨path, text⟩)).1 =
          query.refused (.unreadable q .noEntry) ∧
        (query.ask ⟨disk.saved place text modified, environment⟩ .empty).1 =
          query.refused (.unreadable q .notDirectory)
  commanded : disk.DirectoryAt disk.home → place ≠ Settings.fileName :: disk.home →
    ∀ (query : Query) line environment format live settled input,
      query.cursor? = some (path, line) →
      (∀ settings, Settings.load disk ['.'] = .ok settings →
        Straight (disk.saved place text modified) path place (query.Loads
          ⟨disk.saved place text modified, (settings.withEnvironment environment).environment⟩
          .empty)) →
      Command.parse live = (query.request? true).map (⟨·, environment, format⟩) →
      Command.parse settled = (query.request? false).map (⟨·, environment, format⟩) →
      Command.run disk (Disk.encode text) live =
        Command.run (disk.saved place text modified) input settled

theorem Query.request?_some {query : Query} {path : Path} {line : Nat}
    (hc : query.cursor? = some (path, line)) (stdin : Bool) :
    ∃ request, query.request? stdin = some request := by
  cases query with
  | hover q line column => exact ⟨_, rfl⟩
  | definition q line column => exact ⟨_, rfl⟩
  | instrument | «variable» | find | candidates | resolve => cases hc

theorem unsaved_asSaved (disk : Disk) (path : Path) (place : Trail) (text : Text) (modified : Nat)
    (hplace : disk.locate path = .ok place) (hfile : ¬ disk.DirectoryAt place) :
    AsSaved disk path place text modified where
  written := Disk.write_located hfile hplace
  asked := by
    intro environment query hstraight
    cases hc : query.cursor? with
    | none =>
      exact .inl (ask_saved hplace hfile environment query hstraight fun q line hq => by
        cases hc.symm.trans hq)
    | some cursor =>
      obtain ⟨q, line⟩ := cursor
      cases hl : Store.empty.load (disk.saved place text modified) q (some line) with
      | ok loaded =>
        refine .inl (ask_saved hplace hfile environment query hstraight fun q' line' hq => ?_)
        cases hc.symm.trans hq
        exact ⟨loaded, hl⟩
      | error failure =>
        -- the text itself loads, so this is another document, and the two refusals are compared
        let setting : Setting := ⟨disk, environment⟩
        let after : Setting := ⟨disk.saved place text modified, environment⟩
        have hclosed : query.ask after .empty = (query.refused failure, .empty) :=
          Query.ask_unloaded hc hl
        have hopen (other : Failure) (hl' : (Store.empty.setActive ⟨path, text⟩).load disk q
            (some line) = .error other) : query.ask setting (Store.empty.setActive ⟨path, text⟩) =
              (query.refused other, Store.empty.setActive ⟨path, text⟩) :=
          Query.ask_unloaded hc hl'
        rcases load_unsaved hplace hfile (hstraight q (Query.loads_cursor after .empty hc)) hl with
          hl' | ⟨hn, rfl, hl'⟩
        · exact .inl (by rw [hopen _ hl', hclosed])
        · exact .inr ⟨hn, q, line, rfl, by rw [hopen _ hl'], by rw [hclosed]⟩
  commanded := by
    intro hhome hsettings query line environment format live settled input hc hstraight hlive
      hsettled
    obtain ⟨request, hr⟩ := Query.request?_some hc true
    obtain ⟨request', hr'⟩ := Query.request?_some hc false
    have hanswer := answer_saved hplace hfile environment input hhome hsettings hc hstraight
    rw [hr] at hlive hanswer
    rw [hr'] at hsettled hanswer
    have hanswer := Option.some.inj hanswer
    simp only [Command.run, hlive, hsettled, Option.map_some, hanswer]

/-! ## A new file in the way -/

/-- Before the text is saved the way is not there, and afterwards it is no directory. -/
theorem unsaved_in_the_way :
    let disk := Disk.empty ["work".toList]
    let place : Trail := ["x.mml".toList, "work".toList]
    let query := Query.hover "x.mml/../y.mml".toList 0 0
    disk.locate "x.mml".toList = .ok place ∧ disk.node? place = none ∧
      Straight (disk.saved place [] 1) "x.mml".toList place
        (query.Loads ⟨disk.saved place [] 1, none⟩ .empty) ∧
      (query.ask ⟨disk, none⟩ (Store.empty.setActive ⟨"x.mml".toList, []⟩)).1 ≠
        (query.ask ⟨disk.saved place [] 1, none⟩ .empty).1 := by
  intro disk place query
  have hopen : (Store.empty.setActive ⟨"x.mml".toList, []⟩).load disk "x.mml/../y.mml".toList
      (some 0) = .error (.unreadable "x.mml/../y.mml".toList .noEntry) := rfl
  have hsaved : Store.empty.load (disk.saved place [] 1) "x.mml/../y.mml".toList (some 0) =
      .error (.unreadable "x.mml/../y.mml".toList .notDirectory) := rfl
  refine ⟨rfl, rfl, ?_, ?_⟩
  · rintro q (rfl | ⟨doc, after, text, reference, hl, -⟩) hq
    · have haway : Path.sameDocument disk.home "x.mml/../y.mml".toList "x.mml".toList = false := by
        decide +kernel
      exact absurd (haway.symm.trans hq) Bool.false_ne_true
    · rw [hsaved] at hl
      cases hl
  · have hbefore : query.ask ⟨disk, none⟩ _ = (query.refused _, _) := Query.ask_unloaded rfl hopen
    have hafter : query.ask ⟨disk.saved place [] 1, none⟩ _ = (query.refused _, _) :=
      Query.ask_unloaded rfl hsaved
    rw [hbefore, hafter]
    intro heq
    cases heq

def straightAt (disk : Disk) (path : Path) (place : Trail) (q : Path) : Bool :=
  !q.sameDocument disk.home path || (disk.locate q).toOption == some place

theorem straight_instrument {setting : Setting} {store after : Store} {path song : Path}
    {place : Trail} {anchor id n : Nat} {doc : Snapshot}
    (hl : store.load setting.disk song (some anchor) = .ok (doc, after))
    (hsong : straightAt setting.disk path place song = true)
    (h : (Search.taken setting (Instrument.goal id) n (Search.sites doc (doc.upward 0) doc.stem)
      ⟨after, [doc.path]⟩).any (fun sites =>
        (sites.filterMap (Search.sends setting (Instrument.goal id))).all
          (straightAt setting.disk path place)) = true) :
    Straight setting.disk path place ((Query.instrument song anchor id).Loads setting store) := by
  have hcheck (q : Path) (hq : q.sameDocument setting.disk.home path = true)
      (hs : straightAt setting.disk path place q = true) : setting.disk.locate q = .ok place := by
    cases hlocate : setting.disk.locate q <;>
      simp_all [straightAt, Except.toOption]
  rintro q (rfl | ⟨doc', after', hl', hloads⟩) hq
  · exact hcheck _ hq hsong
  · rw [hl] at hl'
    cases hl'
    obtain ⟨sites, hsites, hall⟩ := (Option.any_eq_true _ _).1 h
    exact hcheck q hq (List.all_eq_true.1 hall q (Search.mem_sent hsites hloads))

def drafting : Disk := .holding
  [("song.mml", "#Include ./lib.mml\n#Include bass.mml\nA @7".toUTF8, 1),
    ("env/bass.mml", "@3 bass\n#Include ../env/lib.mml".toUTF8, 2)]

def draft : Text := "@7 lead\n#Include ../song.mml".toList

/-- The library is reached under two spellings, and neither is the one it is open as. -/
theorem unsaved_asSaved_drafting :
    let path := "env/../env/lib.mml".toList
    let place : Trail := ["lib.mml".toList, "env".toList, "work".toList]
    let query := Query.instrument "song.mml".toList 2 7
    let after : Setting := ⟨drafting.saved place draft 5, some "env".toList⟩
    let words := ["hover".toList, path, "0".toList, "3".toList]
    drafting.locate path = .ok place ∧ ¬ drafting.DirectoryAt place ∧
      Straight after.disk path place (query.Loads after .empty) ∧
      Command.parse (words ++ ["--stdin".toList]) =
        ((Query.hover path 0 3).request? true).map (⟨·, none, .text⟩) ∧
      Command.parse words = ((Query.hover path 0 3).request? false).map (⟨·, none, .text⟩) ∧
      AsSaved drafting path place draft 5 := by
  intro path place query after words
  have hplace : drafting.locate path = .ok place := rfl
  have hfile : ¬ drafting.DirectoryAt place := by
    rintro ⟨changed, h⟩
    cases h
  have hstraight : Straight after.disk path place (query.Loads after .empty) :=
    straight_instrument (n := 20) rfl (by decide +kernel) (by decide +kernel)
  exact ⟨hplace, hfile, hstraight, rfl, rfl,
    unsaved_asSaved drafting path place draft 5 hplace hfile⟩

end MmlLookup
