import MmlLookup.Instrument
import MmlLookup.Proofs.Agreement
import MmlLookup.Proofs.Bounded
import MmlLookup.Proofs.Reached

/-!
# Finding an instrument

The search for an instrument answers with a definition exactly if some line on offer
defines it: a line of the document between the topmost line and the anchor, a line
within reach of these through inclusions, or a line of a bank that one of them names.
Entering every document once loses none of them, in whatever way documents include
each other.
-/

set_option autoImplicit false

namespace MmlLookup.Instrument

open Search (Site Sweep Walk)

theorem definitionText_head (line : Text) (id : Nat) (text : Text)
    (h : definitionText line id = some text) : ∃ rest, line = '@' :: rest := by
  unfold definitionText definitionParts at h
  split at h
  · rename_i hp
    split at hp
    · exact ⟨_, rfl⟩
    · cases hp
  · cases h

theorem goal_quiet (id : Nat) : (goal id).Quiet := by
  intro line h
  cases hd : definitionText line id with
  | none => simp [goal, hd] at h
  | some text =>
    obtain ⟨rest, rfl⟩ := definitionText_head line id text hd
    simp [Directive.parse, Text.afterKeyword]

theorem hit?_goal (id : Nat) (site : Site) :
    Search.hit? (goal id) site =
      (definitionText site.text id).map fun text => site.descriptor text true := by
  cases h : definitionText site.text id <;> simp [Search.hit?, goal, h]

theorem near?_goal (id : Nat) (site : Site) : Search.near? (goal id) site = none := by
  cases h : definitionText site.text id <;> simp [Search.near?, goal, h]

theorem answer_head (id : Nat) (lines : List Site) :
    (Search.answer (goal id) lines).candidates.head? =
      lines.findSome? (Search.hit? (goal id)) := by
  rw [Search.answer_eq]
  cases lines.findSome? (Search.hit? (goal id)) with
  | some found => rfl
  | none => simp [List.filterMap_eq_nil_iff.2 fun site _ => near?_goal id site]

def between (doc : Snapshot) (top line : Nat) : Prop := top ≤ line ∧ line ≤ doc.anchor

theorem between_site (doc : Snapshot) (top line : Nat) (h : between doc top line) :
    ∃ site ∈ Search.sites doc (doc.upward top) doc.stem,
      site.inBank = false ∧ site.text = doc.lines.getD line [] :=
  ⟨⟨doc, line, doc.stem, false⟩,
    List.mem_map.2 ⟨line, (doc.mem_upward top line).2 h, rfl⟩, rfl, rfl⟩

/-- The lines within reach of those between the topmost line and the anchor. -/
def Within (disk : Disk) (environment : Path) (store : Store) (doc : Snapshot) (top : Nat) :
    Location → Text → Prop :=
  Search.Reached disk store.active environment doc.path doc.lines (between doc top)

/-- These lines, and those of the banks they name. -/
def OnOffer (disk : Disk) (environment : Path) (store : Store) (doc : Snapshot) (top : Nat) :
    Location → Text → Prop :=
  Search.Offered disk store.active environment doc.path doc.lines (between doc top)

/-- A search that ends, finds a definition on offer if there is one, finds nothing else,
and has entered just what is included within reach if it finds nothing. -/
structure Exhaustive (disk : Disk) (environment : Path) (store : Store) (doc : Snapshot)
    (id top : Nat) (result : Except Failure (Option Descriptor) × Walk) : Prop where
  answers : ∃ found, result.1 = .ok found
  none_iff : result.1 = .ok none ↔
    ∀ place text, OnOffer disk environment store doc top place text → definitionText text id = none
  sound : ∀ descriptor, result.1 = .ok (some descriptor) → descriptor.perfect = true ∧
    ∃ text, OnOffer disk environment store doc top descriptor.location text ∧
      definitionText text id = some descriptor.definition
  entered_iff : result.1 = .ok none → ∀ path, result.2.hasEntered disk.home path = true ↔
    path.sameDocument disk.home doc.path = true ∨ ∃ place text name target,
      Within disk environment store doc top place text ∧
        Search.named disk store.active environment text = some (.inclusion name, target) ∧
        path.sameDocument disk.home target.path = true

section Sweeping

variable {disk : Disk} {environment : Path} {store : Store} {doc : Snapshot} {top id : Nat}
  {lines : List Site} {last : Walk}
  (h : Sweep disk environment (goal id) (Search.sites doc (doc.upward top) doc.stem)
    ⟨store, [doc.path]⟩ lines last)
include h

theorem find_of_sweep :
    (find ⟨disk, some environment⟩ doc id top ⟨store, []⟩).1 =
        .ok (lines.findSome? (Search.hit? (goal id))) ∧
      (lines.findSome? (Search.hit? (goal id)) = none →
        (find ⟨disk, some environment⟩ doc id top ⟨store, []⟩).2 = last) := by
  obtain ⟨hanswer, hlast⟩ := Search.run_ends (goal_quiet id) h
  have hfind : find ⟨disk, some environment⟩ doc id top ⟨store, []⟩ =
      ((Search.run ⟨disk, some environment⟩ (goal id)
          (Search.sites doc (doc.upward top) doc.stem) ⟨store, [doc.path]⟩).1.map
            (·.candidates.head?),
        (Search.run ⟨disk, some environment⟩ (goal id)
          (Search.sites doc (doc.upward top) doc.stem) ⟨store, [doc.path]⟩).2) := rfl
  rw [hfind, hanswer]
  exact ⟨by simp [Except.map, answer_head], fun hnone => hlast ((Search.unmatched_iff _ _).2 hnone)⟩

variable (hm : store.Mirrors disk) (ha : disk.Agrees store.active)
include hm ha

theorem sweep_covers_within (place : Location) (text : Text)
    (hw : Within disk environment store doc top place text) :
    ∃ site ∈ lines, site.inBank = false ∧ site.text = text :=
  h.covers_reached ⟨hm, rfl⟩ ha rfl (between_site doc top) place text hw

theorem sweep_covers_offer (place : Location) (text : Text)
    (ho : OnOffer disk environment store doc top place text) :
    ∃ site ∈ lines, site.text = text :=
  h.covers_offered ⟨hm, rfl⟩ ha rfl rfl (between_site doc top) place text ho

variable (hs : disk.Separates store.active)
include hs

theorem sweep_on_offer :
    (∀ site ∈ lines, OnOffer disk environment store doc top
      ⟨site.doc.path, site.line⟩ site.text) ∧
    ∀ entered ∈ last.visited, entered = doc.path ∨ ∃ place text name target,
      Within disk environment store doc top place text ∧
        Search.named disk store.active environment text = some (.inclusion name, target) ∧
        target.path = entered := by
  refine h.within_offered ⟨hm, rfl⟩ ha hs rfl fun site hsite => ?_
  obtain ⟨line, hline, rfl⟩ := List.mem_map.1 hsite
  exact .own line ((doc.mem_upward top line).1 hline)

theorem first_none_iff :
    lines.findSome? (Search.hit? (goal id)) = none ↔
      ∀ place text, OnOffer disk environment store doc top place text →
        definitionText text id = none := by
  rw [List.findSome?_eq_none_iff]
  constructor
  · intro hnone place text ho
    obtain ⟨site, hsite, rfl⟩ := sweep_covers_offer h hm ha place text ho
    simpa [hit?_goal] using hnone site hsite
  · intro hnone site hsite
    simp [hit?_goal, hnone _ _ ((sweep_on_offer h hm ha hs).1 site hsite)]

theorem first_on_offer (descriptor : Descriptor)
    (hd : lines.findSome? (Search.hit? (goal id)) = some descriptor) : descriptor.perfect = true ∧
      ∃ text, OnOffer disk environment store doc top descriptor.location text ∧
        definitionText text id = some descriptor.definition := by
  obtain ⟨site, hsite, hdescribed⟩ := List.exists_of_findSome?_eq_some hd
  rw [hit?_goal] at hdescribed
  obtain ⟨text, htext, rfl⟩ := Option.map_eq_some_iff.1 hdescribed
  exact ⟨rfl, site.text, (sweep_on_offer h hm ha hs).1 site hsite, htext⟩

theorem sweep_entered_iff (path : Path) :
    last.hasEntered disk.home path = true ↔
      path.sameDocument disk.home doc.path = true ∨ ∃ place text name target,
        Within disk environment store doc top place text ∧
          Search.named disk store.active environment text = some (.inclusion name, target) ∧
          path.sameDocument disk.home target.path = true := by
  simp only [Search.hasEntered_iff, Path.sameDocument_iff]
  constructor
  · rintro ⟨entered, he, hk⟩
    rcases (sweep_on_offer h hm ha hs).2 entered he with
      rfl | ⟨place, text, name, target, hw, hn, rfl⟩
    · exact Or.inl hk.symm
    · exact Or.inr ⟨place, text, name, target, hw, hn, hk.symm⟩
  · rintro (hk | ⟨place, text, name, target, hw, hn, hk⟩)
    · exact ⟨doc.path, h.visited doc.path (by simp), hk.symm⟩
    · obtain ⟨site, hsite, hb, rfl⟩ := sweep_covers_within h hm ha place text hw
      obtain ⟨entered, he, hke⟩ := (Search.hasEntered_iff _ _ _).1
        (h.target_entered ⟨hm, rfl⟩ ha hb hsite name target hn)
      exact ⟨entered, he, hke.trans hk.symm⟩

end Sweeping

/-- Soundness and completeness of the search over the lines on offer. The cache may be
empty or hold what earlier loads of the same disk left in it. -/
theorem find_exhaustive (disk : Disk) (environment : Path) (store : Store) (doc : Snapshot)
    (id top : Nat) (hm : store.Mirrors disk) (ha : disk.Agrees store.active)
    (hs : disk.Separates store.active) :
    Exhaustive disk environment store doc id top
      (find ⟨disk, some environment⟩ doc id top ⟨store, []⟩) := by
  obtain ⟨lines, last, h⟩ := Search.sweep_exists disk environment (goal id)
    (Search.sites doc (doc.upward top) doc.stem) ⟨store, [doc.path]⟩
  obtain ⟨hfound, hlast⟩ := find_of_sweep h
  refine ⟨⟨_, hfound⟩, ?_, ?_, ?_⟩
  · rw [hfound, Except.ok.injEq]
    exact first_none_iff h hm ha hs
  · intro descriptor hd
    rw [hfound, Except.ok.injEq] at hd
    exact first_on_offer h hm ha hs descriptor hd
  · intro hnone path
    rw [hfound, Except.ok.injEq] at hnone
    rw [hlast hnone]
    exact sweep_entered_iff h hm ha hs path

def circle : Disk := .holding
  [("song.mml", "@7 far\n#Include b.mml\n#FFFile drums.FF\nA @1".toUTF8, 1),
    ("env/b.mml", "#Include ../song.mml\n#Include ./B.mml\n#Include gone.mml".toUTF8, 2),
    ("env/drums.MML", "@2 kick\n#Include b.mml".toUTF8, 2)]

def song : Snapshot :=
  .make "song.mml".toList
    ["@7 far".toList, "#Include b.mml".toList, "#FFFile drums.FF".toList, "A @1".toList] none

theorem find_exhaustive_circle :
    circle.Agrees none ∧ circle.Separates none ∧
      Exhaustive circle "env".toList ⟨none, []⟩ song 1 0
        (find ⟨circle, some "env".toList⟩ song 1 0 ⟨⟨none, []⟩, []⟩) := by
  have ha : circle.Agrees none := Disk.agrees_of_everyClash circle none (by decide +kernel)
  have hs : circle.Separates none :=
    Disk.separates_of_everyClash circle none (by decide +kernel)
  exact ⟨ha, hs, find_exhaustive circle "env".toList ⟨none, []⟩ song 1 0
    (Store.keeps_nil none _) ha hs⟩

/-! ## A file that cannot be read -/

/-- The files `a.MML` and `A.MML` share a key and a modification time, and the second
is not valid UTF-8. -/
def twins : Disk := .holding
  [("env/a.MML", "#Include c.mml".toUTF8, 5), ("env/A.MML", ⟨#[255]⟩, 5),
    ("env/c.mml", "@1 lead".toUTF8, 7)]

def includesTwin : Snapshot :=
  .make "song.mml".toList ["#Include A.MML".toList, "#FFFile a.FF".toList] none

theorem includesTwin_within (place : Location) (text : Text)
    (h : Within twins "env".toList ⟨none, []⟩ includesTwin 0 place text) :
    text = "#Include A.MML".toList ∨ text = "#FFFile a.FF".toList := by
  induction h with
  | own line hline =>
    have hle : line ≤ 1 := hline.2
    obtain rfl | rfl : line = 0 ∨ line = 1 := by omega
    · exact Or.inl rfl
    · exact Or.inr rfl
  | included place text name target line _ hnamed _ _ ih =>
    have hfst := congrArg (Option.map Prod.fst) hnamed
    rcases ih with rfl | rfl
    · have hnone : (Search.named twins none "env".toList "#Include A.MML".toList).map Prod.fst =
          none := by decide +kernel
      rw [hnone] at hfst
      cases hfst
    · have hbank : (Search.named twins none "env".toList "#FFFile a.FF".toList).map Prod.fst =
          some (.bank ['a']) := by decide +kernel
      rw [hbank] at hfst
      cases hfst

theorem includesTwin_undefined (place : Location) (text : Text)
    (h : OnOffer twins "env".toList ⟨none, []⟩ includesTwin 0 place text) :
    definitionText text 1 = none := by
  cases h with
  | reached place text hr =>
    rcases includesTwin_within place text hr with rfl | rfl <;> decide +kernel
  | banked place text name bank line hr hnamed hline =>
    have hlines := congrArg (Option.map fun found => found.2.lines) hnamed
    rcases includesTwin_within place text hr with rfl | rfl
    · have hnone : (Search.named twins none "env".toList "#Include A.MML".toList).map
          (fun found => found.2.lines) = none := by decide +kernel
      rw [hnone] at hlines
      cases hlines
    · have hbank : (Search.named twins none "env".toList "#FFFile a.FF".toList).map
          (fun found => found.2.lines) = some ["#Include c.mml".toList] := by decide +kernel
      have hb : bank.lines = ["#Include c.mml".toList] :=
        Option.some.inj (hlines.symm.trans hbank)
      have hmem := bank.lineAt_mem line hline
      rw [hb, List.mem_singleton] at hmem
      rw [hmem]
      decide +kernel

/-- The bank leaves its lines in the cache, where the file that cannot be read finds
them: the search goes on in a document that an empty cache does not load. -/
theorem twins_not_exhaustive :
    twins.Agrees none ∧ ¬ Exhaustive twins "env".toList ⟨none, []⟩ includesTwin 1 0
      (find ⟨twins, some "env".toList⟩ includesTwin 1 0 ⟨⟨none, []⟩, []⟩) := by
  refine ⟨Disk.agrees_of_everyClash twins none (by decide +kernel), fun hex => ?_⟩
  have hnone := hex.none_iff.2 includesTwin_undefined
  obtain ⟨last, hwithin⟩ := Search.outcomeWithin_some ⟨twins, some "env".toList⟩ (goal 1) id 9
    (Search.sites includesTwin (includesTwin.upward 0) includesTwin.stem)
    ⟨⟨none, []⟩, [includesTwin.path]⟩
    (.exactly ⟨"lead".toList, ['c'], ⟨"env/c.mml".toList, 0⟩, true⟩) (by decide +kernel)
  rw [Search.find_of_within hwithin] at hnone
  cases hnone

end MmlLookup.Instrument
