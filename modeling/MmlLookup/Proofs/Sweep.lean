import MmlLookup.Proofs.Loading
import MmlLookup.Search.Run

/-!
# The lines a search comes to

With an environment directory no search fails, and which lines it comes to does not
depend on what it seeks, only on where it stops. A sweep lists the lines a search
comes to when nothing stops it. The answer of the search is then read off the sweep:
the first line that matches exactly, or else all lines that nearly match.
-/

set_option autoImplicit false

namespace MmlLookup.Search

theorem directiveOf_bank (goal : Goal) (site : Site) (name : Text)
    (h : directiveOf goal site = some (.bank name)) :
    Directive.parse site.text = some (.bank name) ∧ goal.banks = true := by
  unfold directiveOf at h
  split at h
  · cases h
  · split at h
    · split at h
      · rename_i hp hb
        cases h
        exact ⟨hp, hb⟩
      · cases h
    · rename_i hne
      exact absurd h (hne name)

theorem directiveOf_inclusion (goal : Goal) (site : Site) (name : Text) (h : ¬ site.inBank) :
    directiveOf goal site = some (.inclusion name) ↔
      Directive.parse site.text = some (.inclusion name) := by
  unfold directiveOf
  rw [if_neg h]
  split
  · rename_i hp
    split <;> simp [hp]
  · rfl

theorem directiveOf_inBank (goal : Goal) (site : Site) (h : site.inBank) :
    directiveOf goal site = none := by simp [directiveOf, h]

/-- One line of a sweep: the bank lines it adds at once, the included lines it puts in
front of the agenda, and the walk after it. -/
inductive Step (disk : Disk) (environment : Path) (goal : Goal) (site : Site) (walk : Walk) :
    List Site → List Site → Walk → Prop
  | plain : directiveOf goal site = none → Step disk environment goal site walk [] [] walk
  | missing (directive : Directive) (failure : Failure) :
      directiveOf goal site = some directive →
      walk.store.load disk (directive.target environment) none = .error failure →
      Step disk environment goal site walk [] [] walk
  | bank (name : Text) (doc : Snapshot) (store : Store) :
      directiveOf goal site = some (.bank name) →
      walk.store.load disk ((Directive.bank name).target environment) none = .ok (doc, store) →
      Step disk environment goal site walk (bankSites doc name) [] { walk with store }
  | again (name : Text) (doc : Snapshot) (store : Store) :
      directiveOf goal site = some (.inclusion name) →
      walk.store.load disk ((Directive.inclusion name).target environment) none =
        .ok (doc, store) →
      walk.hasEntered disk.home doc.path = true →
      Step disk environment goal site walk [] [] { walk with store }
  | entered (name : Text) (doc : Snapshot) (store : Store) :
      directiveOf goal site = some (.inclusion name) →
      walk.store.load disk ((Directive.inclusion name).target environment) none =
        .ok (doc, store) →
      walk.hasEntered disk.home doc.path = false →
      Step disk environment goal site walk []
        (sites doc (doc.upward 0) (goal.shown name doc.path))
        ({ walk with store }.enter doc.path)

/-- The lines of a whole search that nothing stops, and the walk at its end. -/
inductive Sweep (disk : Disk) (environment : Path) (goal : Goal) :
    List Site → Walk → List Site → Walk → Prop
  | done (walk : Walk) : Sweep disk environment goal [] walk [] walk
  | step (site : Site) (rest scanned ahead lines : List Site) (walk after last : Walk) :
      Step disk environment goal site walk scanned ahead after →
      Sweep disk environment goal (ahead ++ rest) after lines last →
      Sweep disk environment goal (site :: rest) walk (site :: scanned ++ lines) last

section Environment

variable {disk : Disk} {environment : Path} {goal : Goal} {site : Site}
  {walk after last : Walk} {scanned ahead agenda rest lines : List Site}

theorem Step.follow (h : Step disk environment goal site walk scanned ahead after) :
    Search.follow ⟨disk, some environment⟩ goal site walk = .ok (scanned ++ ahead, after) := by
  cases h with
  | plain hd => simp [Search.follow, hd]
  | missing directive failure hd hl => simp [Search.follow, openTarget, hd, hl]
  | bank name doc store hd hl => simp [Search.follow, openTarget, hd, hl]
  | again name doc store hd hl hv =>
    have hv' : { walk with store }.hasEntered disk.home doc.path = true := hv
    simp [Search.follow, openTarget, hd, hl, hv']
  | entered name doc store hd hl hv =>
    have hv' : { walk with store }.hasEntered disk.home doc.path = false := hv
    simp [Search.follow, openTarget, hd, hl, hv']

theorem step_exists (disk : Disk) (environment : Path) (goal : Goal) (site : Site)
    (walk : Walk) :
    ∃ scanned ahead after, Step disk environment goal site walk scanned ahead after := by
  cases hd : directiveOf goal site with
  | none => exact ⟨_, _, _, .plain hd⟩
  | some directive =>
    cases hl : walk.store.load disk (directive.target environment) none with
    | error failure => exact ⟨_, _, _, .missing directive failure hd hl⟩
    | ok loaded =>
      cases directive with
      | bank name => exact ⟨_, _, _, .bank name loaded.1 loaded.2 hd hl⟩
      | inclusion name =>
        cases hv : walk.hasEntered disk.home loaded.1.path with
        | true => exact ⟨_, _, _, .again name loaded.1 loaded.2 hd hl hv⟩
        | false => exact ⟨_, _, _, .entered name loaded.1 loaded.2 hd hl hv⟩

theorem Step.decreases (h : Step disk environment goal site walk scanned ahead after)
    (rest : List Site) :
    Prod.Lex (· < ·) (Prod.Lex (· < ·) (· < ·))
      ((after.remaining disk).length, followed (ahead ++ rest), (ahead ++ rest).length)
      ((walk.remaining disk).length, followed (site :: rest), (site :: rest).length) := by
  cases h with
  | plain hd => exact pop_decreases _ _ _
  | missing directive failure hd hl => exact pop_decreases _ _ _
  | bank name doc store hd hl =>
    rw [remaining_store walk disk store (Store.load_active _ _ _ _ _ _ hl)]
    exact pop_decreases _ _ _
  | again name doc store hd hl hv =>
    rw [remaining_store walk disk store (Store.load_active _ _ _ _ _ _ hl)]
    exact pop_decreases _ _ _
  | entered name doc store hd hl hv =>
    have hs := Store.load_active _ _ _ _ _ _ hl
    refine Prod.Lex.left _ _ ?_
    rw [← remaining_store walk disk store hs]
    refine remaining_enter _ _ _ ?_ hv
    rw [Store.knownKeys_congr store walk.store disk hs, Store.load_path _ _ _ _ _ _ hl]
    exact Store.load_known _ _ _ _ _ _ hl

theorem sweep_exists (disk : Disk) (environment : Path) (goal : Goal) (agenda : List Site)
    (walk : Walk) : ∃ lines last, Sweep disk environment goal agenda walk lines last := by
  match agenda with
  | [] => exact ⟨_, _, .done walk⟩
  | site :: rest =>
    obtain ⟨scanned, ahead, after, hstep⟩ := step_exists disk environment goal site walk
    obtain ⟨lines, last, hsweep⟩ :=
      sweep_exists disk environment goal (ahead ++ rest) after
    exact ⟨_, _, .step site rest scanned ahead lines walk after last hstep hsweep⟩
termination_by ((walk.remaining disk).length, followed agenda, agenda.length)
decreasing_by exact hstep.decreases rest

/-- What every step keeps, a sweep keeps: of each line it comes to, and of the walk. -/
theorem Sweep.invariant (Q : Site → Prop) (J : Walk → Prop)
    (hstep : ∀ site walk scanned ahead after,
      Step disk environment goal site walk scanned ahead after → Q site → J walk →
        (∀ other ∈ scanned, Q other) ∧ (∀ other ∈ ahead, Q other) ∧ J after)
    (h : Sweep disk environment goal agenda walk lines last)
    (hQ : ∀ site ∈ agenda, Q site) (hJ : J walk) : (∀ site ∈ lines, Q site) ∧ J last := by
  induction h with
  | done walk => exact ⟨by simp, hJ⟩
  | step site rest scanned ahead lines walk after last hs _ ih =>
    have hsite := hQ site (by simp)
    obtain ⟨hscanned, hahead, hafter⟩ := hstep _ _ _ _ _ hs hsite hJ
    obtain ⟨hlines, hlast⟩ := ih (by
      intro other ho
      rcases List.mem_append.1 ho with ho | ho
      · exact hahead other ho
      · exact hQ other (by simp [ho])) hafter
    refine ⟨?_, hlast⟩
    intro other ho
    rcases List.mem_cons.1 ho with rfl | ho
    · exact hsite
    · rcases List.mem_append.1 ho with ho | ho
      · exact hscanned other ho
      · exact hlines other ho

/-! ## The answer of a sequence of lines -/

def Goal.Quiet (goal : Goal) : Prop :=
  ∀ text, goal.sign text ≠ .silent → Directive.parse text = none

def answer (goal : Goal) : List Site → Outcome
  | [] => .nothing
  | site :: lines =>
    match goal.sign site.text with
    | .hit definition => .exactly (site.descriptor definition true)
    | .near definition => .following (site.descriptor definition false) (answer goal lines)
    | _ => answer goal lines

def hit? (goal : Goal) (site : Site) : Option Descriptor :=
  match goal.sign site.text with
  | .hit definition => some (site.descriptor definition true)
  | _ => none

def near? (goal : Goal) (site : Site) : Option Descriptor :=
  match goal.sign site.text with
  | .near definition => some (site.descriptor definition false)
  | _ => none

theorem answer_eq (goal : Goal) (lines : List Site) :
    answer goal lines =
      match lines.findSome? (hit? goal) with
      | some found => .exactly found
      | none => ⟨lines.filterMap (near? goal), false⟩ := by
  induction lines with
  | nil => rfl
  | cons site lines ih =>
    rw [answer, ih]
    cases hs : goal.sign site.text with
    | near definition =>
      simp only [List.findSome?_cons, List.filterMap_cons, hit?, near?, hs]
      cases lines.findSome? (hit? goal) <;> simp [Outcome.following, Outcome.exactly]
    | _ => simp [hit?, near?, hs]

def Unmatched (goal : Goal) (lines : List Site) : Prop :=
  ∀ site ∈ lines, ∀ definition, goal.sign site.text ≠ .hit definition

theorem unmatched_iff (goal : Goal) (lines : List Site) :
    Unmatched goal lines ↔ lines.findSome? (hit? goal) = none := by
  rw [List.findSome?_eq_none_iff]
  constructor
  · intro h site hs
    cases hd : goal.sign site.text with
    | hit definition => exact absurd hd (h site hs definition)
    | _ => simp [hit?, hd]
  · intro h site hs definition hd
    simpa [hit?, hd] using h site hs

/-- A search ends as a sequence of lines tells. -/
def Ends (goal : Goal) (result : Except Failure Outcome × Walk) (lines : List Site)
    (last : Walk) : Prop :=
  result.1 = .ok (answer goal lines) ∧ (Unmatched goal lines → result.2 = last)

theorem Goal.Quiet.directiveOf (hq : goal.Quiet) (h : goal.sign site.text ≠ .silent) :
    Search.directiveOf goal site = none := by
  unfold Search.directiveOf
  rw [hq site.text h]
  simp

theorem Goal.Quiet.follow (hq : goal.Quiet) (setting : Setting) (walk : Walk)
    (h : goal.sign site.text ≠ .silent) :
    Search.follow setting goal site walk = .ok ([], walk) := by
  simp [Search.follow, hq.directiveOf h]

theorem run_cons_ends (hq : goal.Quiet) (setting : Setting)
    (hf : Search.follow setting goal site walk = .ok (ahead, after))
    (h : Ends goal (run setting goal (ahead ++ rest) after) lines last) :
    Ends goal (run setting goal (site :: rest) walk) (site :: lines) last := by
  obtain ⟨hanswer, hlast⟩ := h
  have htail (hu : Unmatched goal (site :: lines)) : Unmatched goal lines :=
    fun other ho => hu other (by simp [ho])
  have hskip (hs : goal.sign site.text ≠ .silent) : ahead = [] ∧ after = walk := by
    rw [hq.follow setting walk hs] at hf
    cases hf
    exact ⟨rfl, rfl⟩
  unfold Ends
  rw [run_cons]
  cases hs : goal.sign site.text with
  | hit definition =>
    refine ⟨by simp [answer, hs], fun hu => ?_⟩
    exact absurd hs (hu site (by simp) definition)
  | near definition =>
    obtain ⟨rfl, rfl⟩ := hskip (by simp [hs])
    simp only [List.nil_append] at hanswer hlast
    exact ⟨by simp [answer, hs, hanswer, Except.map], fun hu => hlast (htail hu)⟩
  | other =>
    obtain ⟨rfl, rfl⟩ := hskip (by simp [hs])
    simp only [List.nil_append] at hanswer hlast
    exact ⟨by simp [answer, hs, hanswer], fun hu => hlast (htail hu)⟩
  | silent =>
    simp only [hf]
    exact ⟨by simp [answer, hs, hanswer], fun hu => hlast (htail hu)⟩

theorem run_bank_ends (hq : goal.Quiet) (setting : Setting) (block : List Site)
    (hb : ∀ site ∈ block, site.inBank) (h : Ends goal (run setting goal rest walk) lines last) :
    Ends goal (run setting goal (block ++ rest) walk) (block ++ lines) last := by
  induction block with
  | nil => exact h
  | cons site block ih =>
    have hf : Search.follow setting goal site walk = .ok ([], walk) := by
      simp [Search.follow, directiveOf_inBank goal site (hb site (by simp))]
    exact run_cons_ends hq setting hf (ih fun other ho => hb other (by simp [ho]))

theorem Step.scanned_inBank (h : Step disk environment goal site walk scanned ahead after) :
    ∀ other ∈ scanned, other.inBank := by
  cases h <;> simp [bankSites]

/-- A search answers what its sweep tells, and ends where the sweep ends unless a line
matches exactly. -/
theorem run_ends (hq : goal.Quiet) (h : Sweep disk environment goal agenda walk lines last) :
    Ends goal (run ⟨disk, some environment⟩ goal agenda walk) lines last := by
  induction h with
  | done walk =>
    rw [run_nil]
    exact ⟨rfl, fun _ => rfl⟩
  | step site rest scanned ahead lines walk after last hs _ ih =>
    have hblock := run_bank_ends hq ⟨disk, some environment⟩ scanned hs.scanned_inBank ih
    rw [← List.append_assoc] at hblock
    exact run_cons_ends hq _ hs.follow hblock

end Environment

end MmlLookup.Search
