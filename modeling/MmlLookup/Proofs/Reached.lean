import MmlLookup.Proofs.Sweep

/-!
# Lines within reach

The lines of a document lead to further documents: an inclusion line to all lines of
its target, unless the target is the document the search began in. These are the
least lines closed under inclusion, whatever order they are met in and however often
a document is included. A sweep comes to all of them and to nothing else.
-/

set_option autoImplicit false

namespace MmlLookup

namespace Snapshot

theorem mem_upward (doc : Snapshot) (top line : Nat) :
    line ∈ doc.upward top ↔ top ≤ line ∧ line ≤ doc.anchor := by
  simp only [upward, List.mem_reverse, List.mem_range'_1]
  omega

theorem mem_upward_whole (doc : Snapshot) (path : Path) (line : Nat)
    (h : doc = make path doc.lines none) (hpos : 0 < doc.lines.length) :
    line ∈ doc.upward 0 ↔ line < doc.lines.length := by
  have ha : doc.anchor = doc.lines.length - 1 := by
    rw [h]
    rfl
  rw [mem_upward, ha]
  omega

theorem mem_downward (doc : Snapshot) (line : Nat) :
    line ∈ doc.downward ↔ doc.anchor < line ∧ line < doc.lines.length := by
  simp only [downward, List.mem_range'_1]
  omega

theorem lineAt_mem (doc : Snapshot) (line : Nat) (h : line < doc.lines.length) :
    doc.lineAt line ∈ doc.lines := by
  simp [lineAt, h]

theorem lineAt_cases (doc : Snapshot) (line : Nat) :
    doc.lineAt line = [] ∨ doc.lineAt line ∈ doc.lines := by
  by_cases h : line < doc.lines.length
  · exact Or.inr (doc.lineAt_mem line h)
  · exact Or.inl (by simp [lineAt, h])

theorem mem_lines (doc : Snapshot) (text : Text) (h : text ∈ doc.lines) :
    ∃ line, line < doc.lines.length ∧ doc.lineAt line = text := by
  obtain ⟨line, hl, rfl⟩ := List.mem_iff_getElem.1 h
  exact ⟨line, hl, by simp [lineAt, hl]⟩

end Snapshot

namespace Search

/-- The directive on a line and the document it names, if an empty cache loads it. -/
def named (disk : Disk) (active : Option Buffer) (environment : Path) (text : Text) :
    Option (Directive × Snapshot) :=
  (Directive.parse text).bind fun directive =>
    (disk.opened active (directive.target environment)).map fun doc => (directive, doc)

/-- The lines within reach of a document's own lines. An inclusion that leads back to
the document adds nothing. -/
inductive Reached (disk : Disk) (active : Option Buffer) (environment : Path) (path : Path)
    (lines : List Text) (own : Nat → Prop) : Location → Text → Prop
  | own (line : Nat) : own line →
      Reached disk active environment path lines own ⟨path, line⟩ (lines.getD line [])
  | included (place : Location) (text name : Text) (target : Snapshot) (line : Nat) :
      Reached disk active environment path lines own place text →
      named disk active environment text = some (.inclusion name, target) →
      target.path.sameDocument disk.home path = false → line < target.lines.length →
      Reached disk active environment path lines own ⟨target.path, line⟩ (target.lineAt line)

inductive Offered (disk : Disk) (active : Option Buffer) (environment : Path) (path : Path)
    (lines : List Text) (own : Nat → Prop) : Location → Text → Prop
  | reached (place : Location) (text : Text) :
      Reached disk active environment path lines own place text →
      Offered disk active environment path lines own place text
  | banked (place : Location) (text name : Text) (bank : Snapshot) (line : Nat) :
      Reached disk active environment path lines own place text →
      named disk active environment text = some (.bank name, bank) →
      line < bank.lines.length →
      Offered disk active environment path lines own ⟨bank.path, line⟩ (bank.lineAt line)

theorem named_iff (disk : Disk) (active : Option Buffer) (environment : Path) (text : Text)
    (directive : Directive) (doc : Snapshot) :
    named disk active environment text = some (directive, doc) ↔
      Directive.parse text = some directive ∧
        disk.opened active (directive.target environment) = some doc := by
  simp only [named, Option.bind_eq_some_iff, Option.map_eq_some_iff, Prod.mk.injEq]
  constructor
  · rintro ⟨_, hp, _, ho, rfl, rfl⟩
    exact ⟨hp, ho⟩
  · rintro ⟨hp, ho⟩
    exact ⟨directive, hp, doc, ho, rfl, rfl⟩

theorem opened_at (disk : Disk) (active : Option Buffer) (path : Path) (doc : Snapshot)
    (h : disk.opened active path = some doc) : doc.path = path := by
  rw [Store.opened_path disk active path doc h]
  rfl

theorem named_opened (disk : Disk) (active : Option Buffer) (environment : Path) (text : Text)
    (directive : Directive) (doc : Snapshot)
    (h : named disk active environment text = some (directive, doc)) :
    disk.opened active doc.path = some doc := by
  have ho := ((named_iff _ _ _ _ _ _).1 h).2
  rwa [opened_at _ _ _ _ ho]

theorem Reached.split {disk : Disk} {active : Option Buffer} {environment path : Path}
    {lines : List Text} {own first second : Nat → Prop} {place : Location} {text : Text}
    (hparts : ∀ line, own line → first line ∨ second line)
    (h : Reached disk active environment path lines own place text) :
    Reached disk active environment path lines first place text ∨
      Reached disk active environment path lines second place text := by
  induction h with
  | own line ho => exact (hparts line ho).imp (.own line) (.own line)
  | included place text name target line _ ht hne hline ih =>
    exact ih.imp (fun h => .included place text name target line h ht hne hline)
      (fun h => .included place text name target line h ht hne hline)

/-! ## The walk of a sweep -/

def Walk.Fits (walk : Walk) (disk : Disk) (active : Option Buffer) : Prop :=
  walk.store.Mirrors disk ∧ walk.store.active = active

section Walks

variable {disk : Disk} {active : Option Buffer} {environment : Path} {goal : Goal}
  {site : Site} {walk after last : Walk} {scanned ahead agenda lines : List Site}

theorem Walk.Fits.load (h : walk.Fits disk active) (path : Path) (doc : Snapshot)
    (store : Store) (hl : walk.store.load disk path none = .ok (doc, store)) :
    { walk with store }.Fits disk active := by
  obtain ⟨hm, ha⟩ := Store.load_mirrors h.1 hl
  exact ⟨hm, ha.trans h.2⟩

theorem Step.fits (h : Step disk environment goal site walk scanned ahead after)
    (hf : walk.Fits disk active) : after.Fits disk active := by
  cases h with
  | plain hd => exact hf
  | missing directive failure hd hl => exact hf
  | bank name doc store hd hl => exact hf.load _ doc store hl
  | again name doc store hd hl hv => exact hf.load _ doc store hl
  | entered name doc store hd hl hv => exact hf.load _ doc store hl

theorem Sweep.fits (h : Sweep disk environment goal agenda walk lines last)
    (hf : walk.Fits disk active) : last.Fits disk active := by
  induction h with
  | done walk => exact hf
  | step site rest scanned ahead lines walk after last hs _ ih => exact ih (hs.fits hf)

theorem Step.visited (h : Step disk environment goal site walk scanned ahead after) :
    ∀ path ∈ walk.visited, path ∈ after.visited := by
  intro path hp
  cases h with
  | entered name doc store hd hl hv => exact List.mem_append_left _ hp
  | _ => exact hp

theorem Sweep.visited (h : Sweep disk environment goal agenda walk lines last) :
    ∀ path ∈ walk.visited, path ∈ last.visited := by
  induction h with
  | done walk => exact fun path hp => hp
  | step site rest scanned ahead lines walk after last hs _ ih =>
    exact fun path hp => ih path (hs.visited path hp)

theorem Sweep.mem_lines (h : Sweep disk environment goal agenda walk lines last) :
    ∀ site ∈ agenda, site ∈ lines := by
  induction h with
  | done walk => exact fun site hs => hs
  | step site rest scanned ahead lines walk after last _ _ ih =>
    intro other ho
    rcases List.mem_cons.1 ho with rfl | ho
    · simp
    · simp [ih other (by simp [ho])]

theorem hasEntered_iff (walk : Walk) (home : Trail) (path : Path) :
    walk.hasEntered home path = true ↔
      ∃ entered ∈ walk.visited, entered.key home = path.key home := by
  simp [Walk.hasEntered, Path.sameDocument]

theorem hasEntered_mono (home : Trail) (path : Path)
    (hv : ∀ path ∈ walk.visited, path ∈ after.visited)
    (h : walk.hasEntered home path = true) : after.hasEntered home path = true := by
  obtain ⟨entered, he, hk⟩ := (hasEntered_iff _ _ _).1 h
  exact (hasEntered_iff _ _ _).2 ⟨entered, hv entered he, hk⟩

theorem hasEntered_ne (home : Trail) (path other : Path)
    (h : walk.hasEntered home path = true) (ho : walk.hasEntered home other = false) :
    other.sameDocument home path = false := by
  rw [Path.sameDocument_false]
  intro hk
  obtain ⟨entered, he, hke⟩ := (hasEntered_iff _ _ _).1 h
  rw [(hasEntered_iff _ _ _).2 ⟨entered, he, hke.trans hk.symm⟩] at ho
  cases ho

theorem enter_hasEntered (walk : Walk) (home : Trail) (path : Path) :
    (walk.enter path).hasEntered home path = true :=
  (hasEntered_iff _ _ _).2 ⟨path, by simp [Walk.enter], rfl⟩

theorem Step.target_entered (h : Step disk environment goal site walk scanned ahead after)
    (hf : walk.Fits disk active) (ha : disk.Agrees active) (hb : site.inBank = false)
    (name : Text) (target : Snapshot)
    (ht : named disk active environment site.text = some (.inclusion name, target)) :
    after.hasEntered disk.home target.path = true := by
  obtain ⟨hp, ho⟩ := (named_iff _ _ _ _ _ _).1 ht
  have hd := (directiveOf_inclusion goal site name (by simp [hb])).2 hp
  obtain ⟨store, hl⟩ := Store.load_of_opened hf.1 (hf.2 ▸ ha) (hf.2 ▸ ho)
  cases h with
  | plain hd' => simp [hd] at hd'
  | missing directive failure hd' hl' =>
    obtain rfl : Directive.inclusion name = directive := by simpa [hd] using hd'
    rw [hl] at hl'
    cases hl'
  | bank other doc store' hd' hl' => simp [hd] at hd'
  | again other doc store' hd' hl' hv =>
    obtain rfl : name = other := by simpa [hd] using hd'
    rw [hl] at hl'
    cases hl'
    exact hv
  | entered other doc store' hd' hl' hv =>
    obtain rfl : name = other := by simpa [hd] using hd'
    rw [hl] at hl'
    cases hl'
    exact enter_hasEntered _ _ _

theorem Step.bank_scanned (h : Step disk environment goal site walk scanned ahead after)
    (hf : walk.Fits disk active) (ha : disk.Agrees active) (hg : goal.banks = true)
    (hb : site.inBank = false) (name : Text) (bank : Snapshot)
    (hbank : named disk active environment site.text = some (.bank name, bank)) :
    ∀ text ∈ bank.lines, ∃ other ∈ scanned, other.text = text := by
  obtain ⟨hp, ho⟩ := (named_iff _ _ _ _ _ _).1 hbank
  have hd : directiveOf goal site = some (.bank name) := by simp [directiveOf, hb, hp, hg]
  obtain ⟨store, hl⟩ := Store.load_of_opened hf.1 (hf.2 ▸ ha) (hf.2 ▸ ho)
  cases h with
  | plain hd' => simp [hd] at hd'
  | missing directive failure hd' hl' =>
    obtain rfl : Directive.bank name = directive := by simpa [hd] using hd'
    rw [hl] at hl'
    cases hl'
  | again other doc store' hd' hl' hv => simp [hd] at hd'
  | entered other doc store' hd' hl' hv => simp [hd] at hd'
  | bank other doc store' hd' hl' =>
    obtain rfl : name = other := by simpa [hd] using hd'
    rw [hl] at hl'
    cases hl'
    intro text ht
    obtain ⟨line, hline, rfl⟩ := bank.mem_lines text ht
    exact ⟨⟨bank, line, name, true⟩, by simp [bankSites, hline], rfl⟩

theorem Sweep.target_entered (h : Sweep disk environment goal agenda walk lines last)
    (hf : walk.Fits disk active) (ha : disk.Agrees active) (hb : site.inBank = false)
    (hs : site ∈ lines) (name : Text) (target : Snapshot)
    (ht : named disk active environment site.text = some (.inclusion name, target)) :
    last.hasEntered disk.home target.path = true := by
  induction h with
  | done walk => simp at hs
  | step head rest scanned ahead lines walk after last hstep hsweep ih =>
    rcases List.mem_cons.1 hs with rfl | hs
    · exact hasEntered_mono _ _ hsweep.visited (hstep.target_entered hf ha hb name target ht)
    · rcases List.mem_append.1 hs with hs | hs
      · simp [hstep.scanned_inBank site hs] at hb
      · exact ih (hstep.fits hf) hs

theorem Sweep.bank_scanned (h : Sweep disk environment goal agenda walk lines last)
    (hf : walk.Fits disk active) (ha : disk.Agrees active) (hg : goal.banks = true)
    (hb : site.inBank = false) (hs : site ∈ lines) (name : Text) (bank : Snapshot)
    (hbank : named disk active environment site.text = some (.bank name, bank)) :
    ∀ text ∈ bank.lines, ∃ other ∈ lines, other.text = text := by
  intro text ht
  induction h with
  | done walk => simp at hs
  | step head rest scanned ahead lines walk after last hstep hsweep ih =>
    rcases List.mem_cons.1 hs with rfl | hs
    · obtain ⟨other, ho, rfl⟩ := hstep.bank_scanned hf ha hg hb name bank hbank text ht
      exact ⟨other, by simp [ho], rfl⟩
    · rcases List.mem_append.1 hs with hs | hs
      · simp [hstep.scanned_inBank site hs] at hb
      · obtain ⟨other, ho, rfl⟩ := ih (hstep.fits hf) hs
        exact ⟨other, by simp [ho], rfl⟩

theorem Sweep.entered_swept (h : Sweep disk environment goal agenda walk lines last)
    (hf : walk.Fits disk active) (path : Path) (hp : path ∈ last.visited) :
    path ∈ walk.visited ∨ ∃ source doc, source.sameDocument disk.home path = true ∧
      disk.opened active source = some doc ∧
      ∀ text ∈ doc.lines, ∃ site ∈ lines, site.inBank = false ∧ site.text = text := by
  induction h with
  | done walk => exact Or.inl hp
  | step head rest scanned ahead lines walk after last hstep hsweep ih =>
    rcases ih (hstep.fits hf) hp with hv | ⟨source, doc, hsame, ho, hall⟩
    · cases hstep with
      | entered name doc store hd hl hv' =>
        rcases List.mem_append.1 hv with hv | hv
        · exact Or.inl hv
        · obtain rfl : path = doc.path := by simpa using hv
          obtain ⟨hmake, hserved⟩ := Store.load_served _ _ _ _ _ _ hl
          obtain ⟨source, other, hsame, ho, hlines⟩ := hserved.origin hf.1
          refine Or.inr ⟨source, other, ?_, hf.2 ▸ ho, ?_⟩
          · rwa [Store.load_path _ _ _ _ _ _ hl]
          · intro text ht
            rw [hlines] at ht
            obtain ⟨line, hline, rfl⟩ := doc.mem_lines text ht
            have hmem := (doc.mem_upward_whole _ line hmake (by omega)).2 hline
            refine ⟨⟨doc, line, goal.shown name doc.path, false⟩, ?_, rfl, rfl⟩
            refine List.mem_cons_of_mem _ (List.mem_append_right _ ?_)
            exact hsweep.mem_lines _ (List.mem_append_left _ (List.mem_map.2 ⟨line, hmem, rfl⟩))
      | _ => exact Or.inl hv
    · refine Or.inr ⟨source, doc, hsame, ho, fun text ht => ?_⟩
      obtain ⟨site, hs, hb, htext⟩ := hall text ht
      exact ⟨site, by simp [hs], hb, htext⟩

/-- A sweep that starts in a document comes to every line within its reach: what it has
entered is closed under inclusion. -/
theorem Sweep.covers_reached {path : Path} {texts : List Text} {own : Nat → Prop}
    (h : Sweep disk environment goal agenda walk lines last) (hf : walk.Fits disk active)
    (ha : disk.Agrees active) (hv : walk.visited = [path])
    (howns : ∀ line, own line →
      ∃ site ∈ agenda, site.inBank = false ∧ site.text = texts.getD line [])
    (place : Location) (text : Text)
    (hr : Reached disk active environment path texts own place text) :
    ∃ site ∈ lines, site.inBank = false ∧ site.text = text := by
  induction hr with
  | own line ho =>
    obtain ⟨site, hs, hb, ht⟩ := howns line ho
    exact ⟨site, h.mem_lines site hs, hb, ht⟩
  | included place text name target line _ ht hne hline ih =>
    obtain ⟨site, hs, hb, rfl⟩ := ih
    obtain ⟨entered, he, hk⟩ :=
      (hasEntered_iff _ _ _).1 (h.target_entered hf ha hb hs name target ht)
    -- the target may have been entered under another path: its lines are the same
    rcases h.entered_swept hf entered he with hfirst | ⟨source, doc, hsame, ho, hall⟩
    · obtain rfl : entered = path := by simpa [hv] using hfirst
      rw [Path.sameDocument_false] at hne
      exact absurd hk.symm hne
    · have hsame' : source.sameDocument disk.home target.path = true := by
        rw [Path.sameDocument_iff] at hsame ⊢
        rw [hsame, hk]
      have hlines := ha _ _ _ _ hsame' ho (named_opened _ _ _ _ _ _ ht)
      exact hall _ (hlines ▸ target.lineAt_mem line hline)

theorem Sweep.covers_offered {path : Path} {texts : List Text} {own : Nat → Prop}
    (h : Sweep disk environment goal agenda walk lines last) (hf : walk.Fits disk active)
    (ha : disk.Agrees active) (hg : goal.banks = true) (hv : walk.visited = [path])
    (howns : ∀ line, own line →
      ∃ site ∈ agenda, site.inBank = false ∧ site.text = texts.getD line [])
    (place : Location) (text : Text)
    (hr : Offered disk active environment path texts own place text) :
    ∃ site ∈ lines, site.text = text := by
  cases hr with
  | reached place text hr =>
    obtain ⟨site, hs, -, ht⟩ := h.covers_reached hf ha hv howns _ _ hr
    exact ⟨site, hs, ht⟩
  | banked place text name bank line hr hbank hline =>
    obtain ⟨site, hs, hb, rfl⟩ := h.covers_reached hf ha hv howns _ _ hr
    exact h.bank_scanned hf ha hg hb hs name bank hbank _ (bank.lineAt_mem line hline)

/-- A step from a line within reach stays on offer, and enters only what is included
from within reach. -/
theorem Step.within_offered {path : Path} {texts : List Text} {own : Nat → Prop}
    (h : Step disk environment goal site walk scanned ahead after)
    (hf : walk.Fits disk active) (ha : disk.Agrees active) (hs : disk.Separates active)
    (hr : site.inBank = false →
      Reached disk active environment path texts own ⟨site.doc.path, site.line⟩ site.text)
    (hv : walk.hasEntered disk.home path = true) :
    (∀ other ∈ scanned,
      Offered disk active environment path texts own ⟨other.doc.path, other.line⟩ other.text) ∧
    (∀ other ∈ ahead,
      Reached disk active environment path texts own ⟨other.doc.path, other.line⟩ other.text) ∧
    ∀ entered ∈ after.visited, entered ∈ walk.visited ∨ ∃ place text name target,
      Reached disk active environment path texts own place text ∧
        named disk active environment text = some (.inclusion name, target) ∧
        target.path = entered := by
  cases h with
  | plain hd => exact ⟨by simp, by simp, fun _ he => Or.inl he⟩
  | missing directive failure hd hl => exact ⟨by simp, by simp, fun _ he => Or.inl he⟩
  | again name doc store hd hl hv' => exact ⟨by simp, by simp, fun _ he => Or.inl he⟩
  | bank name doc store hd hl =>
    have hsite := hr (directiveOf_followed goal site _ hd)
    have ho : disk.opened active ((Directive.bank name).target environment) = some doc :=
      hf.2 ▸ Store.opened_of_load hf.1 (hf.2 ▸ ha) (hf.2 ▸ hs) hl
    have hnamed := (named_iff _ _ _ _ _ _).2 ⟨(directiveOf_bank _ _ _ hd).1, ho⟩
    refine ⟨fun other hother => ?_, by simp, fun _ he => Or.inl he⟩
    obtain ⟨line, hline, rfl⟩ := List.mem_map.1 hother
    exact .banked _ _ name doc line hsite hnamed (List.mem_range.1 hline)
  | entered name doc store hd hl hv' =>
    have hb := directiveOf_followed goal site _ hd
    have hsite := hr hb
    have ho : disk.opened active ((Directive.inclusion name).target environment) = some doc :=
      hf.2 ▸ Store.opened_of_load hf.1 (hf.2 ▸ ha) (hf.2 ▸ hs) hl
    have hnamed := (named_iff _ _ _ _ _ _).2
      ⟨(directiveOf_inclusion _ _ _ (by simp [hb])).1 hd, ho⟩
    have hne := hasEntered_ne _ _ _ hv hv'
    refine ⟨by simp, fun other hother => ?_, fun entered he => ?_⟩
    · obtain ⟨line, hline, rfl⟩ := List.mem_map.1 hother
      have hlt := (doc.mem_upward_whole _ line (Store.opened_path _ _ _ _ ho)
        (Store.opened_nonempty _ _ _ _ ho)).1 hline
      exact .included _ _ name doc line hsite hnamed hne hlt
    · rcases List.mem_append.1 he with he | he
      · exact Or.inl he
      · exact Or.inr ⟨_, _, name, doc, hsite, hnamed, by simpa [eq_comm] using he⟩

theorem Sweep.within_offered {path : Path} {texts : List Text} {own : Nat → Prop}
    (h : Sweep disk environment goal agenda walk lines last) (hf : walk.Fits disk active)
    (ha : disk.Agrees active) (hs : disk.Separates active) (hv : walk.visited = [path])
    (hr : ∀ site ∈ agenda,
      Reached disk active environment path texts own ⟨site.doc.path, site.line⟩ site.text) :
    (∀ site ∈ lines,
      Offered disk active environment path texts own ⟨site.doc.path, site.line⟩ site.text) ∧
    ∀ entered ∈ last.visited, entered = path ∨ ∃ place text name target,
      Reached disk active environment path texts own place text ∧
        named disk active environment text = some (.inclusion name, target) ∧
        target.path = entered := by
  -- bank lines are on offer without being within reach, so a line carries both facts
  have hinv := h.invariant
    (fun site => Offered disk active environment path texts own
        ⟨site.doc.path, site.line⟩ site.text ∧
      (site.inBank = false → Reached disk active environment path texts own
        ⟨site.doc.path, site.line⟩ site.text))
    (fun walk => walk.Fits disk active ∧ walk.hasEntered disk.home path = true ∧
      ∀ entered ∈ walk.visited, entered = path ∨ ∃ place text name target,
        Reached disk active environment path texts own place text ∧
          named disk active environment text = some (.inclusion name, target) ∧
          target.path = entered)
    ?_ (fun site hsite => ⟨.reached _ _ (hr site hsite), fun _ => hr site hsite⟩)
    ⟨hf, (hasEntered_iff _ _ _).2 ⟨path, by simp [hv], rfl⟩, by simp [hv]⟩
  · exact ⟨fun site hsite => (hinv.1 site hsite).1, hinv.2.2.2⟩
  · intro site walk scanned ahead after hstep ⟨_, hsite⟩ ⟨hfits, hhome, hfrom⟩
    obtain ⟨hscanned, hahead, hentered⟩ := hstep.within_offered hfits ha hs hsite hhome
    refine ⟨fun other ho => ⟨hscanned other ho, fun hb => ?_⟩,
      fun other ho => ⟨.reached _ _ (hahead other ho), fun _ => hahead other ho⟩,
      hstep.fits hfits, hasEntered_mono _ _ hstep.visited hhome, fun entered he => ?_⟩
    · simp [hstep.scanned_inBank other ho] at hb
    · rcases hentered entered he with he | he
      · exact hfrom entered he
      · exact Or.inr he

end Walks

end Search

end MmlLookup
