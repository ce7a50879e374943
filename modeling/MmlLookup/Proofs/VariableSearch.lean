import MmlLookup.Proofs.Agreement
import MmlLookup.Proofs.Reached
import MmlLookup.Proofs.Resolution

/-!
# Resolving a variable from any anchor

The pass above the anchor and the pass below it enter documents afresh, and share the
store only. Together they come to every line of the document and of the documents its
inclusions lead to, wherever the anchor parts the document. So the anchor decides
which of several equally good definitions is the answer, and nothing else.
-/

set_option autoImplicit false

namespace MmlLookup.Variable

open Search (Site Step Sweep Walk)

/-- The lines of a document, and those of the documents its inclusions lead to. -/
def Scope (disk : Disk) (environment : Path) (active : Option Buffer) (doc : Snapshot)
    (text : Text) : Prop :=
  ∃ place, Search.Reached disk active environment doc.path doc.lines
    (· < doc.lines.length) place text

/-- The best of the definitions in a scope: an exact one if there is one, else a
longest one of those that nearly match. -/
structure Decides (scope : Text → Prop) (token : Token) (found : Option Descriptor) : Prop where
  perfect_iff : (∃ best, found = some best ∧ best.perfect = true) ↔
    ∃ text definition, scope text ∧ Relates token .exactly text definition
  imperfect_iff : (∃ best, found = some best ∧ best.perfect = false) ↔
    (∀ text definition, scope text → ¬ Relates token .exactly text definition) ∧
      ∃ text definition, scope text ∧ Relates token .nearly text definition
  none_iff : found = none ↔ ∀ text definition, scope text →
    ¬ Relates token .exactly text definition ∧ ¬ Relates token .nearly text definition
  sound : ∀ best, found = some best → ∃ text, scope text ∧
    Relates token (if best.perfect then .exactly else .nearly) text best.definition
  longest : ∀ best, found = some best → best.perfect = false →
    ∀ text definition, scope text → Relates token .nearly text definition →
      definition.length ≤ best.definition.length

/-- Two answers are present or absent together, perfect together, and of one length
if they are not perfect. -/
structure SameVerdict (a b : Option Descriptor) : Prop where
  present : a.isSome = b.isSome
  perfect : a.map (·.perfect) = b.map (·.perfect)
  length : ∀ best other, a = some best → b = some other → best.perfect = false →
    best.definition.length = other.definition.length

theorem relates_nil (token : Token) (relation : Match) (definition : Text) :
    ¬ Relates token relation [] definition := by
  rintro ⟨key, hd, -⟩
  obtain ⟨rest, hr⟩ := definitionParts_head [] _ hd
  cases hr

section Verdicts

variable {scope : Text → Prop} {token : Token}

theorem Decides.of_exact (best : Descriptor) (text : Text) (hp : best.perfect = true)
    (hs : scope text) (hr : Relates token .exactly text best.definition) :
    Decides scope token (some best) where
  perfect_iff := ⟨fun _ => ⟨text, _, hs, hr⟩, fun _ => ⟨best, rfl, hp⟩⟩
  imperfect_iff := by
    refine ⟨fun ⟨other, heq, hq⟩ => ?_, fun ⟨hnone, _⟩ => absurd hr (hnone _ _ hs)⟩
    obtain rfl := Option.some.inj heq
    simp [hp] at hq
  none_iff := ⟨fun h => (by cases h), fun h => absurd hr (h _ _ hs).1⟩
  sound := by
    intro other heq
    obtain rfl := Option.some.inj heq
    exact ⟨text, hs, by simpa [hp] using hr⟩
  longest := by
    intro other heq hq
    obtain rfl := Option.some.inj heq
    simp [hp] at hq

theorem Decides.of_near (best : Descriptor) (text : Text) (hp : best.perfect = false)
    (hs : scope text) (hr : Relates token .nearly text best.definition)
    (hnone : ∀ text definition, scope text → ¬ Relates token .exactly text definition)
    (hmax : ∀ text definition, scope text → Relates token .nearly text definition →
      definition.length ≤ best.definition.length) :
    Decides scope token (some best) where
  perfect_iff := by
    refine ⟨fun ⟨other, heq, hq⟩ => ?_, fun ⟨_, _, ht, hr⟩ => absurd hr (hnone _ _ ht)⟩
    obtain rfl := Option.some.inj heq
    simp [hp] at hq
  imperfect_iff := ⟨fun _ => ⟨hnone, text, _, hs, hr⟩, fun _ => ⟨best, rfl, hp⟩⟩
  none_iff := ⟨fun h => (by cases h), fun h => absurd hr (h _ _ hs).2⟩
  sound := by
    intro other heq
    obtain rfl := Option.some.inj heq
    exact ⟨text, hs, by simpa [hp] using hr⟩
  longest := by
    intro other heq _
    obtain rfl := Option.some.inj heq
    exact hmax

theorem Decides.of_none
    (hnone : ∀ text definition, scope text → ¬ Relates token .exactly text definition)
    (hnear : ∀ text definition, scope text → ¬ Relates token .nearly text definition) :
    Decides scope token none where
  perfect_iff := ⟨fun ⟨_, h, _⟩ => (by cases h), fun ⟨_, _, ht, hr⟩ => absurd hr (hnone _ _ ht)⟩
  imperfect_iff :=
    ⟨fun ⟨_, h, _⟩ => (by cases h), fun ⟨_, _, _, ht, hr⟩ => absurd hr (hnear _ _ ht)⟩
  none_iff := ⟨fun _ _ _ ht => ⟨hnone _ _ ht, hnear _ _ ht⟩, fun _ => rfl⟩
  sound := fun _ h => by cases h
  longest := fun _ h => by cases h

theorem Decides.sameVerdict {a b : Option Descriptor} (ha : Decides scope token a)
    (hb : Decides scope token b) : SameVerdict a b := by
  have hnone : a = none ↔ b = none := ha.none_iff.trans hb.none_iff.symm
  have hperfect := ha.perfect_iff.trans hb.perfect_iff.symm
  cases a with
  | none =>
    obtain rfl := hnone.1 rfl
    exact ⟨rfl, rfl, fun _ _ h => by cases h⟩
  | some best =>
    cases b with
    | none => cases hnone.2 rfl
    | some other =>
      have heq : best.perfect = other.perfect := by
        simp only [Option.some.injEq, exists_eq_left'] at hperfect
        exact Bool.eq_iff_iff.2 hperfect
      refine ⟨rfl, congrArg some heq, fun x y hx hy hp => ?_⟩
      obtain rfl := Option.some.inj hx
      obtain rfl := Option.some.inj hy
      have hq : other.perfect = false := heq ▸ hp
      obtain ⟨s, hs, hrs⟩ := ha.sound _ rfl
      obtain ⟨t, ht, hrt⟩ := hb.sound _ rfl
      simp only [hp, hq, Bool.false_eq_true, if_false] at hrs hrt
      exact Nat.le_antisymm (hb.longest _ rfl hq _ _ hs hrs) (ha.longest _ rfl hp _ _ ht hrt)

end Verdicts

/-! ## The lines of a scope decide it -/

section Lines

variable {scope : Text → Prop} {token : Token} {lines : List Site}
  (hsound : ∀ site ∈ lines, site.text = [] ∨ scope site.text)
  (hcover : ∀ text, scope text → ∃ site ∈ lines, site.text = text)

include hsound in
theorem line_in_scope (site : Site) (relation : Match) (definition : Text) (hs : site ∈ lines)
    (hr : Relates token relation site.text definition) : scope site.text := by
  rcases hsound site hs with hnil | hscope
  · rw [hnil] at hr
    exact absurd hr (relates_nil token relation definition)
  · exact hscope

include hcover in
theorem unmatched_scope (hnone : lines.findSome? (Search.hit? (goal token)) = none) (text : Text)
    (definition : Text) (ht : scope text) : ¬ Relates token .exactly text definition := by
  obtain ⟨site, hs, rfl⟩ := hcover text ht
  exact fun hr => (Search.unmatched_iff _ _).2 hnone site hs definition ((sign_hit _ _ _).2 hr)

include hcover in
theorem near_of_scope (text definition : Text) (ht : scope text)
    (hr : Relates token .nearly text definition) :
    ∃ found ∈ lines.filterMap (Search.near? (goal token)), found.definition = definition := by
  obtain ⟨site, hs, rfl⟩ := hcover text ht
  exact ⟨site.descriptor definition false,
    List.mem_filterMap.2 ⟨site, hs, (near?_some _ _ _).2 ⟨definition, hr, rfl⟩⟩, rfl⟩

include hsound hcover

theorem verdict_decides : Decides scope token (verdict token lines) := by
  unfold verdict
  cases hfirst : lines.findSome? (Search.hit? (goal token)) with
  | some found =>
    obtain ⟨site, hs, hd⟩ := List.exists_of_findSome?_eq_some hfirst
    obtain ⟨definition, hr, rfl⟩ := (hit?_some _ _ _).1 hd
    exact .of_exact _ site.text rfl (line_in_scope hsound site _ _ hs hr) hr
  | none =>
    have hexact := unmatched_scope hcover hfirst
    have hnear := @near_of_scope scope token lines hcover
    dsimp only
    cases hl : longest (lines.filterMap (Search.near? (goal token))) with
    | none =>
      refine .of_none hexact fun text definition ht hr => ?_
      obtain ⟨found, hf, -⟩ := hnear text definition ht hr
      simp [(longest_none _).1 hl] at hf
    | some best =>
      obtain ⟨hmem, hle⟩ := longest_spec _ best hl
      obtain ⟨site, hs, hd⟩ := List.mem_filterMap.1 hmem
      obtain ⟨definition, hr, rfl⟩ := (near?_some _ _ _).1 hd
      refine .of_near _ site.text rfl (line_in_scope hsound site _ _ hs hr) hr hexact
        fun text definition' ht hr' => ?_
      obtain ⟨candidate, hc, rfl⟩ := hnear text definition' ht hr'
      exact hle candidate hc

end Lines

/-! ## Both passes keep to the scope and cover it -/

section Passes

variable {disk : Disk} {environment : Path} {active : Option Buffer} {doc : Snapshot}
  {token : Token} {store : Store}

/-- Whatever is kept for another document than the one searched lies in its scope. -/
def Local (disk : Disk) (environment : Path) (active : Option Buffer) (doc : Snapshot)
    (key : Text) (entry : Cached) : Prop :=
  key = doc.path.key disk.home ∨ ∀ text ∈ entry.lines, Scope disk environment active doc text

theorem scope_of_named (text name : Text) (target : Snapshot)
    (hs : Scope disk environment active doc text)
    (ht : Search.named disk active environment text = some (.inclusion name, target))
    (hne : target.path.sameDocument disk.home doc.path = false) :
    ∀ line ∈ target.lines, Scope disk environment active doc line := by
  intro line hline
  obtain ⟨place, hr⟩ := hs
  obtain ⟨number, hlt, rfl⟩ := target.mem_lines line hline
  exact ⟨_, .included place text name target number hr ht hne hlt⟩

/-- The target of an inclusion in scope is in scope, even if the cache serves it. -/
theorem load_local (text name : Text) (target : Snapshot) (after : Store)
    (hs : Scope disk environment store.active doc text)
    (hp : Directive.parse text = some (.inclusion name))
    (hk : store.Keeps (Local disk environment store.active doc))
    (hl : store.load disk ((Directive.inclusion name).target environment) none =
      .ok (target, after)) :
    after.Keeps (Local disk environment store.active doc) ∧
      (target.path.sameDocument disk.home doc.path = false →
        ∀ line ∈ target.lines, Scope disk environment store.active doc line) := by
  have hpath := Store.load_path _ _ _ _ _ _ hl
  obtain ⟨-, hserved⟩ := Store.load_served _ _ _ _ _ _ hl
  have hscope (loaded : Snapshot)
      (ho : disk.opened store.active ((Directive.inclusion name).target environment) =
        some loaded) (hne : loaded.path.sameDocument disk.home doc.path = false) :=
    scope_of_named text name loaded hs ((Search.named_iff _ _ _ _ _ _).2 ⟨hp, ho⟩) hne
  rw [hpath]
  generalize target.lines = lines at hserved ⊢
  cases hserved with
  | buffer buffer hb =>
    exact ⟨hk, hscope _ (Store.opened_of_buffer store disk _ buffer hb)⟩
  | kept entry hb hc ht =>
    refine ⟨hk, fun hne => ?_⟩
    rcases hk.cached? _ _ hc with hkey | hall
    · exact absurd hkey ((Path.sameDocument_false _ _ _).1 hne)
    · exact hall
  | read text modified hb hr =>
    have ho := Store.opened_of_read store disk _ hb
    rw [hr] at ho
    refine ⟨hk.insert _ _ ?_, hscope _ ho⟩
    -- the slot of the document searched may hold what lies outside: it is never entered again
    by_cases hkey : ((Directive.inclusion name).target environment).key disk.home =
        doc.path.key disk.home
    · exact Or.inl hkey
    · exact Or.inr (hscope _ ho ((Path.sameDocument_false _ _ _).2 hkey))

structure Bounded (disk : Disk) (environment : Path) (active : Option Buffer) (doc : Snapshot)
    (walk : Walk) : Prop where
  entered : walk.hasEntered disk.home doc.path = true
  behind : walk.store.active = active
  keeps : walk.store.Keeps (Local disk environment active doc)

theorem step_bounded (site : Site) (walk after : Walk) (scanned ahead : List Site)
    (h : Step disk environment (goal token) site walk scanned ahead after)
    (hs : site.text = [] ∨ Scope disk environment active doc site.text)
    (hw : Bounded disk environment active doc walk) :
    scanned = [] ∧
      (∀ other ∈ ahead, other.text = [] ∨ Scope disk environment active doc other.text) ∧
      Bounded disk environment active doc after := by
  obtain ⟨hentered, rfl, hkeeps⟩ := hw
  have hload (name : Text) (target : Snapshot) (store : Store)
      (hd : Search.directiveOf (goal token) site = some (.inclusion name))
      (hl : walk.store.load disk ((Directive.inclusion name).target environment) none =
        .ok (target, store)) :
      store.active = walk.store.active ∧
        store.Keeps (Local disk environment walk.store.active doc) ∧
        (target.path.sameDocument disk.home doc.path = false →
          ∀ line ∈ target.lines, Scope disk environment walk.store.active doc line) := by
    have hb := Search.directiveOf_followed _ _ _ hd
    have hp := (Search.directiveOf_inclusion (goal token) site name (by simp [hb])).1 hd
    rcases hs with hnil | hscope
    · rw [hnil] at hp
      cases hp
    · exact ⟨Store.load_active _ _ _ _ _ _ hl, load_local _ _ _ _ hscope hp hkeeps hl⟩
  cases h with
  | plain hd => exact ⟨rfl, by simp, hentered, rfl, hkeeps⟩
  | missing directive failure hd hl => exact ⟨rfl, by simp, hentered, rfl, hkeeps⟩
  | bank name bank store hd hl => cases (Search.directiveOf_bank _ _ _ hd).2
  | again name target store hd hl hv =>
    obtain ⟨hactive, hkept, -⟩ := hload name target store hd hl
    exact ⟨rfl, by simp, hentered, hactive, hkept⟩
  | entered name target store hd hl hv =>
    obtain ⟨hactive, hkept, hlines⟩ := hload name target store hd hl
    refine ⟨rfl, fun other hother => ?_, ?_, hactive, hkept⟩
    · have hne := Search.hasEntered_ne _ _ _ hentered hv
      obtain ⟨line, -, rfl⟩ := List.mem_map.1 hother
      exact (target.lineAt_cases line).imp id (hlines hne _)
    · exact Search.hasEntered_mono _ _ (fun path hpath => List.mem_append_left _ hpath) hentered

theorem pass_bounded (walk last : Walk) (agenda lines : List Site)
    (h : Sweep disk environment (goal token) agenda walk lines last)
    (hagenda : ∀ site ∈ agenda,
      site.text = [] ∨ Scope disk environment active doc site.text)
    (hw : Bounded disk environment active doc walk) :
    (∀ site ∈ lines, site.text = [] ∨ Scope disk environment active doc site.text) ∧
      Bounded disk environment active doc last := by
  refine h.invariant _ _ (fun site walk scanned ahead after hstep hs hwalk => ?_) hagenda hw
  obtain ⟨rfl, hahead, hafter⟩ := step_bounded site walk after scanned ahead hstep hs hwalk
  exact ⟨by simp, hahead, hafter⟩

theorem own_line_in_scope (shown : Text) (numbers : List Nat) (site : Site)
    (h : site ∈ Search.sites doc numbers shown) :
    site.text = [] ∨ Scope disk environment active doc site.text := by
  obtain ⟨line, -, rfl⟩ := List.mem_map.1 h
  by_cases hline : line < doc.lines.length
  · exact Or.inr ⟨_, .own line hline⟩
  · exact Or.inl (by simp [Site.text, Snapshot.lineAt, hline])

theorem own_line_on_agenda (shown : Text) (numbers : List Nat) (line : Nat)
    (h : line ∈ numbers) : ∃ site ∈ Search.sites doc numbers shown,
      site.inBank = false ∧ site.text = doc.lines.getD line [] :=
  ⟨⟨doc, line, shown, false⟩, List.mem_map.2 ⟨line, h, rfl⟩, rfl, rfl⟩

/-- Every line in scope is met by the pass above the anchor or by the pass below it. -/
theorem passes_cover (shown : Text) (above below : List Site) (middle last : Walk)
    (hm : store.Mirrors disk) (ha : disk.Agrees store.active)
    (habove : Sweep disk environment (goal token) (Search.sites doc (doc.upward 0) shown)
      ⟨store, [doc.path]⟩ above middle)
    (hbelow : Sweep disk environment (goal token) (Search.sites doc doc.downward shown)
      ⟨middle.store, [doc.path]⟩ below last) (text : Text)
    (hs : Scope disk environment store.active doc text) :
    ∃ site ∈ above ++ below, site.text = text := by
  have hfirst : (Walk.mk store [doc.path]).Fits disk store.active := ⟨hm, rfl⟩
  have hsecond : (Walk.mk middle.store [doc.path]).Fits disk store.active :=
    habove.fits hfirst
  have hparts (line : Nat) (hline : line < doc.lines.length) :
      line ∈ doc.upward 0 ∨ line ∈ doc.downward := by
    rw [doc.mem_upward, doc.mem_downward]
    omega
  obtain ⟨place, hr⟩ := hs
  rcases hr.split hparts with hr | hr
  · obtain ⟨site, hsite, -, ht⟩ := habove.covers_reached hfirst ha rfl
      (fun line => own_line_on_agenda shown (doc.upward 0) line) place text hr
    exact ⟨site, List.mem_append_left _ hsite, ht⟩
  · obtain ⟨site, hsite, -, ht⟩ := hbelow.covers_reached hsecond ha rfl
      (fun line => own_line_on_agenda shown doc.downward line) place text hr
    exact ⟨site, List.mem_append_right _ hsite, ht⟩

theorem resolve_in_scope (shown : Text) (hm : store.Mirrors disk)
    (ha : disk.Agrees store.active)
    (hown : store.Keeps fun key _ => key = doc.path.key disk.home) :
    ∃ found, (resolve ⟨disk, some environment⟩ doc token shown store).1 = .ok found ∧
      Decides (Scope disk environment store.active doc) token found := by
  obtain ⟨above, middle, habove⟩ := Search.sweep_exists disk environment (goal token)
    (Search.sites doc (doc.upward 0) shown) ⟨store, [doc.path]⟩
  obtain ⟨below, last, hbelow⟩ := Search.sweep_exists disk environment (goal token)
    (Search.sites doc doc.downward shown) ⟨middle.store, [doc.path]⟩
  have hentered (store : Store) :
      (Walk.mk store [doc.path]).hasEntered disk.home doc.path = true :=
    (Search.hasEntered_iff _ _ _).2 ⟨doc.path, by simp, rfl⟩
  obtain ⟨hup, hmiddle⟩ := pass_bounded _ _ _ _ habove (own_line_in_scope shown _)
    ⟨hentered _, rfl, hown.mono fun _ _ => Or.inl⟩
  obtain ⟨hdown, -⟩ := pass_bounded _ _ _ _ hbelow (own_line_in_scope shown _)
    ⟨hentered _, hmiddle.behind, hmiddle.keeps⟩
  refine ⟨_, resolve_of_sweeps habove hbelow, verdict_decides ?_ ?_⟩
  · intro site hs
    exact (List.mem_append.1 hs).elim (hup site) (hdown site)
  · exact passes_cover shown above below middle last hm ha habove hbelow

end Passes

/-- From every anchor the search answers, its answer is decided by the lines in scope,
and two anchors give the same verdict. The cache may be empty or hold what was read of
the document itself. -/
theorem resolve_any_anchor (disk : Disk) (environment : Path) (store : Store) (doc : Snapshot)
    (token : Token) (shown : Text) (hm : store.Mirrors disk) (ha : disk.Agrees store.active)
    (hown : store.Keeps fun key _ => key = doc.path.key disk.home) :
    (∀ anchor, ∃ found,
      (resolve ⟨disk, some environment⟩ (doc.withAnchor anchor) token shown store).1 = .ok found ∧
        Decides (Scope disk environment store.active doc) token found) ∧
    ∀ anchor other a b,
      (resolve ⟨disk, some environment⟩ (doc.withAnchor anchor) token shown store).1 = .ok a →
      (resolve ⟨disk, some environment⟩ (doc.withAnchor other) token shown store).1 = .ok b →
        SameVerdict a b := by
  have hall (anchor : Nat) : ∃ found,
      (resolve ⟨disk, some environment⟩ (doc.withAnchor anchor) token shown store).1 = .ok found ∧
        Decides (Scope disk environment store.active doc) token found :=
    resolve_in_scope shown hm ha hown
  refine ⟨hall, fun anchor other a b hanchor hother => ?_⟩
  obtain ⟨_, hfound, hdecided⟩ := hall anchor
  obtain ⟨_, hfound', hdecided'⟩ := hall other
  obtain rfl := Except.ok.inj (hfound.symm.trans hanchor)
  obtain rfl := Except.ok.inj (hfound'.symm.trans hother)
  exact hdecided.sameVerdict hdecided'

/-- A document that is included from its own lines, with near matches above and below
the inclusion, one of them in a file that includes the document back. -/
def chorus : Disk := .holding
  [("song.mml", "!le one
#Include b.mml
!lea two
#Include ../song.mml".toUTF8, 1),
    ("env/b.mml", "#Include ../Song.mml
!l seven
#Include b.mml".toUTF8, 2)]

def chorusSong : Snapshot :=
  .make "song.mml".toList
    ["!le one".toList, "#Include b.mml".toList, "!lea two".toList,
      "#Include ../song.mml".toList] none

theorem resolve_any_anchor_chorus :
    chorus.Agrees none ∧
      ∃ found, (resolve ⟨chorus, some "env".toList⟩ (chorusSong.withAnchor 2)
          (.named "lead".toList) "song".toList ⟨none, []⟩).1 = .ok found ∧
        Decides (Scope chorus "env".toList none chorusSong) (.named "lead".toList) found := by
  have ha : chorus.Agrees none := Disk.agrees_of_everyClash chorus none (by decide +kernel)
  exact ⟨ha, (resolve_any_anchor chorus "env".toList ⟨none, []⟩ chorusSong
    (.named "lead".toList) "song".toList (Store.keeps_nil none _) ha
    (Store.keeps_nil none _)).1 2⟩

end MmlLookup.Variable
