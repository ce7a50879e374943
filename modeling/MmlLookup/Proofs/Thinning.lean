import MmlLookup.Proofs.Unpruned

/-!
# What pruning leaves out

A search that enters every document once leaves out lines that the search without
this rule comes to again. On a disk without cycles a document that is met again has
been searched to its end, with all it leads to, so each line left out repeats a text
that came before. The invariant behind this is kept line by line: whatever a line on
the agenda may meet entered, is by its turn repeated whole.
-/

set_option autoImplicit false

namespace MmlLookup.Search

/-- Lines may be left out whose text came before. -/
inductive Thins : (Text → Prop) → List Site → List Site → Prop
  | done (past : Text → Prop) : Thins past [] []
  | keep (past : Text → Prop) (site : Site) (full kept : List Site) :
      Thins (fun text => past text ∨ text = site.text) full kept →
      Thins past (site :: full) (site :: kept)
  | drop (past : Text → Prop) (site : Site) (full kept : List Site) :
      past site.text → Thins past full kept → Thins past (site :: full) kept

section Thinning

variable {past more : Text → Prop} {full kept block lines : List Site}

theorem Thins.mono (h : Thins past full kept) (hp : ∀ text, past text → more text) :
    Thins more full kept := by
  induction h generalizing more with
  | done past => exact .done more
  | keep past site full kept _ ih =>
    exact .keep more site full kept (ih fun text => Or.imp (hp text) id)
  | drop past site full kept hs _ ih => exact .drop more site full kept (hp _ hs) (ih hp)

theorem Thins.append (h : Thins past full kept) (hb : Thins past block lines) :
    Thins past (full ++ block) (kept ++ lines) := by
  induction h with
  | done past => exact hb
  | keep past site full kept _ ih => exact .keep past site _ _ (ih (hb.mono fun _ => Or.inl))
  | drop past site full kept hs _ ih => exact .drop past site _ _ hs (ih hb)

theorem Thins.keeps (h : Thins (fun text => past text ∨ ∃ site ∈ block, text = site.text)
    full kept) : Thins past (block ++ full) (block ++ kept) := by
  induction block generalizing past with
  | nil => exact h.mono (by simp)
  | cons site block ih =>
    refine .keep past site _ _ (ih (h.mono fun text ht => ?_))
    simpa [or_assoc] using ht

theorem Thins.drops (hb : ∀ site ∈ block, past site.text) (h : Thins past full kept) :
    Thins past (block ++ full) kept := by
  induction block with
  | nil => exact h
  | cons site block ih =>
    exact .drop past site _ _ (hb site (by simp)) (ih fun other ho => hb other (by simp [ho]))

theorem Thins.first (goal : Goal) (h : Thins past full kept)
    (hp : ∀ text, past text → ∀ definition, goal.sign text ≠ .hit definition) :
    full.findSome? (hit? goal) = kept.findSome? (hit? goal) := by
  induction h with
  | done past => rfl
  | keep past site full kept _ ih =>
    simp only [List.findSome?_cons]
    cases hd : hit? goal site with
    | some found => rfl
    | none =>
      refine ih fun text ht definition hs => ?_
      rcases ht with ht | rfl
      · exact hp text ht definition hs
      · simp [hit?, hs] at hd
  | drop past site full kept hs _ ih =>
    have hd : hit? goal site = none := by
      unfold hit?
      split
      · rename_i hsign
        exact absurd hsign (hp _ hs _)
      · rfl
    simp only [List.findSome?_cons, hd]
    exact ih hp

end Thinning

/-! ## Everything a line leads to -/

inductive Spread (disk : Disk) (active : Option Buffer) (environment : Path) (goal : Goal) :
    Site → Text → Prop
  | self (site : Site) : Spread disk active environment goal site site.text
  | ahead (site other : Site) (text : Text) :
      other ∈ Search.ahead disk active environment goal site →
      Spread disk active environment goal other text →
      Spread disk active environment goal site text

/-- A document is entered from a line, or from what the line leads to. -/
def Below (disk : Disk) (active : Option Buffer) (environment : Path) (goal : Goal)
    (site : Site) (doc : Snapshot) : Prop :=
  ∃ name target, lead disk active environment goal site = some (.inclusion name, target) ∧
    Relation.ReflTransGen (Leads disk active environment) target doc

/-- All that a document leads to has come before. -/
def Covered (disk : Disk) (active : Option Buffer) (environment : Path) (goal : Goal)
    (past : Text → Prop) (doc : Snapshot) : Prop :=
  ∀ line ∈ doc.upward 0, ∀ text,
    Spread disk active environment goal ⟨doc, line, [], false⟩ text → past text

/-- What a line on the agenda may meet entered is covered when it is the line's turn. -/
def Settled (disk : Disk) (active : Option Buffer) (environment : Path) (goal : Goal)
    (walk : Walk) (past : Text → Prop) : List Site → Prop
  | [] => True
  | site :: rest =>
    (∀ doc, Below disk active environment goal site doc →
      walk.hasEntered disk.home doc.path = true →
        Covered disk active environment goal past doc) ∧
    Settled disk active environment goal walk
      (fun text => past text ∨ Spread disk active environment goal site text) rest

section Spreading

variable {disk : Disk} {active : Option Buffer} {environment : Path} {goal : Goal}
  {past more : Text → Prop} {site other : Site} {agenda rest lines : List Site}
  {walk after : Walk} {doc target : Snapshot}

theorem Spread.congr {text : Text} (ht : site.text = other.text)
    (hb : site.inBank = other.inBank) (h : Spread disk active environment goal site text) :
    Spread disk active environment goal other text := by
  have hdirective : directiveOf goal site = directiveOf goal other := by
    simp only [directiveOf, ht, hb]
  cases h with
  | self => exact ht ▸ .self other
  | ahead _ next _ hn hs =>
    refine .ahead other next text ?_ hs
    simpa only [Search.ahead, lead, hdirective] using hn

theorem spread_iff (text : Text) :
    Spread disk active environment goal site text ↔
      text = site.text ∨ ∃ other ∈ Search.ahead disk active environment goal site,
        Spread disk active environment goal other text := by
  constructor
  · intro h
    cases h with
    | self => exact Or.inl rfl
    | ahead _ other _ ho hs => exact Or.inr ⟨other, ho, hs⟩
  · rintro (rfl | ⟨other, ho, hs⟩)
    · exact .self site
    · exact .ahead site other text ho hs

theorem Unpruned.spread (h : Unpruned disk active environment goal agenda lines) :
    ∀ other ∈ lines, ∃ site ∈ agenda, Spread disk active environment goal site other.text := by
  induction h with
  | done => simp
  | step site rest lines _ ih =>
    intro other ho
    rcases List.mem_cons.1 ho with rfl | ho
    · exact ⟨other, by simp, .self other⟩
    · obtain ⟨from', hfrom, hs⟩ := ih other ho
      rcases List.mem_append.1 hfrom with hahead | hrest
      · exact ⟨site, by simp, .ahead site from' _ hahead hs⟩
      · exact ⟨from', by simp [hrest], hs⟩

theorem Covered.mono (h : Covered disk active environment goal past doc)
    (hp : ∀ text, past text → more text) : Covered disk active environment goal more doc :=
  fun line hline text hs => hp text (h line hline text hs)

theorem covered_of_sites (shown : Text) (ho : disk.opened active doc.path = some doc)
    (ht : disk.opened active target.path = some target) (hlines : doc.lines = target.lines)
    (hp : ∀ site ∈ sites target (target.upward 0) shown, ∀ text,
      Spread disk active environment goal site text → past text) :
    Covered disk active environment goal past doc := by
  intro line hline text hs
  have hlt := (doc.mem_upward_whole _ line (Store.opened_path _ _ _ _ ho)
    (Store.opened_nonempty _ _ _ _ ho)).1 hline
  have hline' := (target.mem_upward_whole _ line (Store.opened_path _ _ _ _ ht)
    (Store.opened_nonempty _ _ _ _ ht)).2 (hlines ▸ hlt)
  have htext : (Site.mk doc line [] false).text = (Site.mk target line shown false).text := by
    simp [Site.text, Snapshot.lineAt, hlines]
  exact hp ⟨target, line, shown, false⟩ (List.mem_map.2 ⟨line, hline', rfl⟩) text
    (hs.congr htext rfl)

theorem Below.opened (h : Below disk active environment goal site doc) :
    disk.opened active doc.path = some doc := by
  obtain ⟨name, target, hl, hr⟩ := h
  cases hr with
  | refl => exact named_opened _ _ _ _ _ _ (lead_inclusion name _ hl)
  | tail _ hlast => exact hlast.opened

theorem below_leads (numbers : List Nat) (shown : Text) (hs : site ∈ sites doc numbers shown)
    (h : Below disk active environment goal site target) :
    Relation.TransGen (Leads disk active environment) doc target := by
  obtain ⟨name, first, hl, hr⟩ := h
  have hn := lead_inclusion name first hl
  have hfirst : Leads disk active environment doc first := by
    rcases sites_text numbers shown hs with hnil | hmem
    · rw [hnil] at hn
      cases hn
    · exact named_leads hmem hn
  exact Relation.TransGen.head' hfirst hr

theorem Settled.mono (h : Settled disk active environment goal walk past agenda)
    (hp : ∀ text, past text → more text)
    (hw : ∀ doc, disk.opened active doc.path = some doc →
      after.hasEntered disk.home doc.path = true →
        walk.hasEntered disk.home doc.path = true ∨ Covered disk active environment goal more doc) :
    Settled disk active environment goal after more agenda := by
  induction agenda generalizing past more with
  | nil => trivial
  | cons site rest ih =>
    refine ⟨fun doc hbelow hentered => ?_, ih h.2 (fun text => Or.imp (hp text) id) ?_⟩
    · rcases hw doc hbelow.opened hentered with hv | hcovered
      · exact (h.1 doc hbelow hv).mono hp
      · exact hcovered
    · intro doc ho hentered
      exact (hw doc ho hentered).imp id fun hcovered => hcovered.mono fun _ => Or.inl

theorem settled_append {block : List Site}
    (hb : ∀ site ∈ block, ∀ doc, Below disk active environment goal site doc →
      walk.hasEntered disk.home doc.path = true → Covered disk active environment goal past doc)
    (h : Settled disk active environment goal walk (fun text => past text ∨
      ∃ site ∈ block, Spread disk active environment goal site text) rest) :
    Settled disk active environment goal walk past (block ++ rest) := by
  induction block generalizing past with
  | nil => exact h.mono (by simp) fun doc _ hv => Or.inl hv
  | cons site block ih =>
    refine ⟨hb site (by simp), ih (fun other ho doc hbelow hv => ?_) ?_⟩
    · exact (hb other (by simp [ho]) doc hbelow hv).mono fun _ => Or.inl
    · refine h.mono (fun text ht => ?_) fun doc _ hv => Or.inl hv
      simpa [or_assoc] using ht

theorem unpruned_bank_eq {block : List Site} (hb : ∀ site ∈ block, site.inBank = true)
    (h : Unpruned disk active environment goal block lines) : lines = block := by
  induction block generalizing lines with
  | nil =>
    cases h
    rfl
  | cons site block ih =>
    cases h with
    | step _ _ lines h =>
      rw [ahead_inBank (hb site (by simp))] at h
      rw [ih (fun other ho => hb other (by simp [ho])) h]

end Spreading

/-! ## A sweep thins the search without pruning -/

section Pruning

variable {disk : Disk} {active : Option Buffer} {environment : Path} {goal : Goal}
  {site : Site} {walk after last : Walk} {scanned ahead agenda lines full : List Site}
  {past : Text → Prop} {doc : Snapshot}

theorem Step.lead_cases (h : Step disk environment goal site walk scanned ahead after)
    (hf : walk.Fits disk active) (ha : disk.Agrees active) (hs : disk.Separates active) :
    (Search.ahead disk active environment goal site = scanned ∧ ahead = [] ∧
        after.visited = walk.visited) ∨
      ∃ name target, lead disk active environment goal site = some (.inclusion name, target) ∧
        scanned = [] ∧
        ((walk.hasEntered disk.home target.path = true ∧ ahead = [] ∧
            after.visited = walk.visited) ∨
          (ahead = Search.ahead disk active environment goal site ∧
            after.visited = walk.visited ++ [target.path])) := by
  obtain ⟨hm, rfl⟩ := hf
  cases h with
  | plain hd => exact Or.inl ⟨by simp [Search.ahead, lead, hd], rfl, rfl⟩
  | missing directive failure hd hl =>
    have hnone : disk.opened walk.store.active (directive.target environment) = none := by
      cases ho : disk.opened walk.store.active (directive.target environment) with
      | none => rfl
      | some target =>
        obtain ⟨_, hload⟩ := Store.load_of_opened hm ha ho
        rw [hl] at hload
        cases hload
    exact Or.inl ⟨by simp [Search.ahead, lead, hd, hnone], rfl, rfl⟩
  | bank name target store hd hl =>
    have hlead := (lead_some _ _).2 ⟨hd, Store.opened_of_load hm ha hs hl⟩
    exact Or.inl ⟨by simp only [Search.ahead, hlead], rfl, rfl⟩
  | again name target store hd hl hv =>
    have hlead := (lead_some _ _).2 ⟨hd, Store.opened_of_load hm ha hs hl⟩
    exact Or.inr ⟨name, target, hlead, rfl, Or.inl ⟨hv, rfl, rfl⟩⟩
  | entered name target store hd hl hv =>
    have hlead := (lead_some _ _).2 ⟨hd, Store.opened_of_load hm ha hs hl⟩
    exact Or.inr ⟨name, target, hlead, rfl, Or.inr ⟨by simp only [Search.ahead, hlead], rfl⟩⟩

theorem hasEntered_congr (home : Trail) (path : Path) (h : after.visited = walk.visited) :
    after.hasEntered home path = walk.hasEntered home path := by
  simp [Walk.hasEntered, h]

theorem hasEntered_append (home : Trail) (path entered : Path)
    (h : after.visited = walk.visited ++ [entered])
    (hv : after.hasEntered home path = true) :
    walk.hasEntered home path = true ∨ path.sameDocument home entered = true := by
  obtain ⟨other, ho, hk⟩ := (hasEntered_iff _ _ _).1 hv
  rw [h] at ho
  rcases List.mem_append.1 ho with ho | ho
  · exact Or.inl ((hasEntered_iff _ _ _).2 ⟨other, ho, hk⟩)
  · obtain rfl : other = entered := by simpa using ho
    exact Or.inr ((Path.sameDocument_iff _ _ _).2 hk.symm)

theorem Settled.pass {rest : List Site} {before : Text → Prop}
    (h : Settled disk active environment goal walk past (site :: rest))
    (hv : after.visited = walk.visited)
    (hp : ∀ text, past text ∨ Spread disk active environment goal site text → before text) :
    Settled disk active environment goal after before rest :=
  h.2.mono hp fun _ _ hentered => Or.inl (hasEntered_congr _ _ hv ▸ hentered)

theorem spread_inBank (hb : site.inBank = true) (text : Text)
    (h : Spread disk active environment goal site text) : text = site.text := by
  rcases (spread_iff text).1 h with rfl | ⟨other, ho, _⟩
  · rfl
  · simp [ahead_inBank hb] at ho

theorem ahead_inclusion (name : Text) (target : Snapshot)
    (h : lead disk active environment goal site = some (.inclusion name, target)) :
    Search.ahead disk active environment goal site =
      sites target (target.upward 0) (goal.shown name target.path) := by
  simp only [Search.ahead, h]

theorem Covered.spread (h : Covered disk active environment goal past doc) (shown text : Text)
    (hs : site ∈ sites doc (doc.upward 0) shown)
    (ht : Spread disk active environment goal site text) : past text := by
  obtain ⟨line, hline, rfl⟩ := List.mem_map.1 hs
  have htext : (Site.mk doc line shown false).text = (Site.mk doc line [] false).text := rfl
  exact h line hline text (ht.congr htext rfl)

/-- A line that enters nothing, with the bank lines it adds: both searches keep them. -/
theorem thins_scanned {rest : List Site}
    (hscanned : Search.ahead disk active environment goal site = scanned)
    (hb : ∀ other ∈ scanned, other.inBank = true) (hv : after.visited = walk.visited)
    (hsettled : Settled disk active environment goal walk past (site :: rest))
    (hfull : Unpruned disk active environment goal
      (Search.ahead disk active environment goal site ++ rest) full)
    (hrest : ∀ before tail, Settled disk active environment goal after before rest →
      Unpruned disk active environment goal rest tail → Thins before tail lines) :
    Thins past (site :: full) (site :: scanned ++ lines) := by
  rw [hscanned] at hfull
  obtain ⟨block, tail, rfl, hblock, htail⟩ := hfull.split rfl
  obtain rfl := unpruned_bank_eq hb hblock
  refine .keep past site _ _ (hrest _ tail (hsettled.pass hv fun text ht => ?_) htail).keeps
  rw [spread_iff, hscanned] at ht
  rcases ht with ht | rfl | ⟨other, ho, ht⟩
  · exact Or.inl (Or.inl ht)
  · exact Or.inl (Or.inr rfl)
  · exact Or.inr ⟨other, ho, spread_inBank (hb other ho) text ht⟩

/-- A line that includes a document again: all that it leads to is a repetition. -/
theorem thins_again {rest : List Site} (name : Text) (target : Snapshot)
    (hlead : lead disk active environment goal site = some (.inclusion name, target))
    (hentered : walk.hasEntered disk.home target.path = true) (hv : after.visited = walk.visited)
    (hsettled : Settled disk active environment goal walk past (site :: rest))
    (hfull : Unpruned disk active environment goal
      (Search.ahead disk active environment goal site ++ rest) full)
    (hrest : ∀ before tail, Settled disk active environment goal after before rest →
      Unpruned disk active environment goal rest tail → Thins before tail lines) :
    Thins past (site :: full) (site :: lines) := by
  have hcovered := hsettled.1 target ⟨name, target, hlead, .refl⟩ hentered
  rw [ahead_inclusion name target hlead] at hfull
  obtain ⟨block, tail, rfl, hblock, htail⟩ := hfull.split rfl
  refine .keep past site _ _ (Thins.drops (fun other ho => ?_)
    (hrest _ tail (hsettled.pass hv fun text ht => ?_) htail))
  · obtain ⟨source, hsource, ht⟩ := hblock.spread other ho
    exact Or.inl (hcovered.spread _ _ hsource ht)
  · rw [spread_iff, ahead_inclusion name target hlead] at ht
    rcases ht with ht | rfl | ⟨other, ho, ht⟩
    · exact Or.inl ht
    · exact Or.inr rfl
    · exact Or.inl (hcovered.spread _ _ ho ht)

/-- When a document is entered, its lines meet nothing that is under way, and by the turn
of the rest the document has been searched whole. -/
theorem settled_entered {rest : List Site} (name : Text) (target : Snapshot)
    (ha : disk.Agrees active) (hc : Acyclic disk active environment doc)
    (hlead : lead disk active environment goal site = some (.inclusion name, target))
    (hdoc : Relation.TransGen (Leads disk active environment) doc target)
    (hv : after.visited = walk.visited ++ [target.path])
    (hsettled : Settled disk active environment goal walk past (site :: rest)) :
    Settled disk active environment goal after (fun text => past text ∨ text = site.text)
      (Search.ahead disk active environment goal site ++ rest) := by
  have hahead := ahead_inclusion name target hlead
  refine settled_append (fun other ho source hsource hentered => ?_) ?_
  · rw [hahead] at ho
    have hleads := below_leads _ _ ho hsource
    rcases hasEntered_append _ _ _ hv hentered with hbefore | hsame
    · have hunder : Below disk active environment goal site source :=
        ⟨name, target, hlead, hleads.to_reflTransGen⟩
      exact (hsettled.1 source hunder hbefore).mono fun _ => Or.inl
    · -- no document within reach leads back to itself
      have hne := hc target source hdoc.to_reflTransGen hleads
      rw [hsame] at hne
      cases hne
  · refine hsettled.2.mono (fun text ht => ?_) fun source ho hentered => ?_
    · rw [spread_iff] at ht
      rcases ht with ht | rfl | ht
      · exact Or.inl (Or.inl ht)
      · exact Or.inl (Or.inr rfl)
      · exact Or.inr ht
    · refine (hasEntered_append _ _ _ hv hentered).imp id fun hsame => ?_
      have hbelow : Below disk active environment goal site target := ⟨name, target, hlead, .refl⟩
      have hopened := hbelow.opened
      refine covered_of_sites (goal.shown name target.path) ho hopened
        (ha _ _ _ _ hsame ho hopened) fun other hother text ht => ?_
      rw [← hahead] at hother
      exact Or.inr ⟨other, hother, ht⟩

/-- The sweep meets the lines of the search without pruning, less repeated texts. -/
theorem Sweep.thins (h : Sweep disk environment goal agenda walk lines last)
    (hf : walk.Fits disk active) (ha : disk.Agrees active) (hs : disk.Separates active)
    (hc : Acyclic disk active environment doc)
    (hu : ∀ site ∈ agenda, ∀ target, Below disk active environment goal site target →
      Relation.TransGen (Leads disk active environment) doc target)
    (hsettled : Settled disk active environment goal walk past agenda)
    (hfull : Unpruned disk active environment goal agenda full) : Thins past full lines := by
  induction h generalizing past full with
  | done walk =>
    cases hfull
    exact .done past
  | step site rest scanned ahead lines walk after last hstep _ ih =>
    cases hfull with
    | step _ _ full hfull =>
      have hrest : ∀ other ∈ rest, ∀ target,
          Below disk active environment goal other target →
            Relation.TransGen (Leads disk active environment) doc target :=
        fun other ho => hu other (by simp [ho])
      rcases hstep.lead_cases hf ha hs with ⟨hscanned, rfl, hv⟩ | ⟨name, target, hlead, rfl, hcase⟩
      · exact thins_scanned hscanned hstep.scanned_inBank hv hsettled hfull
          fun before tail => ih (hstep.fits hf) hrest
      · have htarget := hu site (by simp) target ⟨name, target, hlead, .refl⟩
        rcases hcase with ⟨hentered, rfl, hv⟩ | ⟨rfl, hv⟩
        · exact thins_again name target hlead hentered hv hsettled hfull
            fun before tail => ih (hstep.fits hf) hrest
        · -- entered now: its lines come in front, and the invariant holds of them too
          refine .keep past site _ _ (ih (hstep.fits hf) (fun other ho source hsource => ?_)
            (settled_entered name target ha hc hlead htarget hv hsettled) hfull)
          rcases List.mem_append.1 ho with ho | ho
          · rw [ahead_inclusion name target hlead] at ho
            exact htarget.trans (below_leads _ _ ho hsource)
          · exact hrest other ho source hsource

end Pruning

end MmlLookup.Search
