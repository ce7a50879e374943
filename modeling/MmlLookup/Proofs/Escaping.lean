import MmlLookup.Proofs.Asking
import MmlLookup.Proofs.InstrumentSearch
import MmlLookup.Proofs.Resolution

/-!
# Failures that escape

A search fails for one reason only: it comes to a directive and no environment
directory is set. What a directive names may be missing, or a directory, or no text;
that is passed over at every depth. So with a directory every search answers, and
without one a search fails if it comes to a directive before a line that ends it. A
question from a cursor fails besides if its own document cannot be read or the numeral
under the cursor is too large.
-/

set_option autoImplicit false

namespace MmlLookup

/-- The document at a path is neither open nor kept, and its file cannot be read. -/
def Store.Unreadable (store : Store) (disk : Disk) (path : Path) (fault : Fault) : Prop :=
  store.buffer? disk.home path = none ∧ store.fresh? disk path = none ∧
    disk.read path = .error fault

theorem Store.load_error_iff (store : Store) (disk : Disk) (path : Path) (anchor : Option Nat)
    (failure : Failure) :
    store.load disk path anchor = .error failure ↔
      ∃ fault, store.Unreadable disk path fault ∧ failure = .unreadable path fault := by
  unfold load Store.lines Unreadable
  cases hb : store.buffer? disk.home path with
  | some buffer => simp
  | none =>
    cases hf : store.fresh? disk path with
    | some lines => simp
    | none => cases hr : disk.read path <;> simp [eq_comm]

theorem map_error {α β : Type} (f : α → β) (result : Except Failure α) (failure : Failure) :
    result.map f = .error failure ↔ result = .error failure := by
  cases result <;> simp [Except.map]

namespace Search

section Failing

variable {setting : Setting} {goal : Goal} {site : Site} {walk : Walk} {failure : Failure}

def Missing (setting : Setting) (failure : Failure) : Prop :=
  failure = .configurationMissing ∧ setting.environment = none

theorem openTarget_failure {store : Store} {directive : Directive}
    (h : openTarget setting store directive = .error failure) : Missing setting failure := by
  unfold openTarget at h
  split at h
  · rename_i he
    cases h
    exact ⟨rfl, he⟩
  · split at h <;> cases h

theorem follow_failure (h : follow setting goal site walk = .error failure) :
    Missing setting failure := by
  unfold follow at h
  split at h
  · cases h
  · split at h
    · rename_i other ho
      cases h
      exact openTarget_failure ho
    · cases h
    · dsimp only at h
      split at h
      · cases h
      · split at h <;> cases h

theorem run_failure (agenda : List Site) (walk : Walk)
    (h : (run setting goal agenda walk).1 = .error failure) : Missing setting failure := by
  induction agenda, walk using run.induct setting goal with
  | case1 walk => simp [run_nil] at h
  | case2 walk site rest definition hs => simp [run_cons, hs] at h
  | case3 walk site rest definition hs _ _ _ ih =>
    simp only [run_cons, hs, map_error] at h
    exact ih h
  | case4 walk site rest hs ih =>
    simp only [run_cons, hs] at h
    exact ih h
  | case5 walk site rest hs other hf =>
    simp only [run_cons, hs, hf, Except.error.injEq] at h
    subst h
    exact follow_failure hf
  | case6 walk site rest hs ahead after hf ih =>
    simp only [run_cons, hs, hf] at h
    exact ih h

theorem start_failure (doc : Snapshot) (lines : List Nat) (shown : Text) (walk : Walk)
    (h : (start setting goal doc lines shown walk).1 = .error failure) :
    Missing setting failure := by
  unfold start at h
  split at h
  · cases h
  · exact run_failure _ _ h

end Failing

/-! ## Without an environment directory -/

/-- The agenda holds a directive, and no line before it matches exactly. -/
inductive Stopped (goal : Goal) : List Site → Prop
  | here (site : Site) (rest : List Site) :
      (directiveOf goal site).isSome → Stopped goal (site :: rest)
  | later (site : Site) (rest : List Site) :
      (∀ definition, goal.sign site.text ≠ .hit definition) → Stopped goal rest →
      Stopped goal (site :: rest)

section Unset

variable {goal : Goal}

theorem stopped_cons (site : Site) (rest : List Site) :
    Stopped goal (site :: rest) ↔ (directiveOf goal site).isSome ∨
      (∀ definition, goal.sign site.text ≠ .hit definition) ∧ Stopped goal rest := by
  constructor
  · intro h
    cases h with
    | here _ _ hd => exact .inl hd
    | later _ _ hs hrest => exact .inr ⟨hs, hrest⟩
  · rintro (hd | ⟨hs, hrest⟩)
    · exact .here site rest hd
    · exact .later site rest hs hrest

/-- The search takes its own lines only and fails at the first directive it comes to. -/
theorem run_unset (disk : Disk) (hq : goal.Quiet) (agenda : List Site) (walk : Walk) :
    (Stopped goal agenda ∧
        run ⟨disk, none⟩ goal agenda walk = (.error .configurationMissing, walk)) ∨
      (¬ Stopped goal agenda ∧
        run ⟨disk, none⟩ goal agenda walk = (.ok (answer goal agenda), walk)) := by
  induction agenda with
  | nil =>
    refine .inr ⟨fun h => ?_, run_nil _ _ _⟩
    cases h
  | cons site rest ih =>
    rw [stopped_cons, run_cons, answer]
    -- only a silent line can be a directive
    cases hs : goal.sign site.text with
    | hit definition =>
      have hd : directiveOf goal site = none := hq.directiveOf (by simp [hs])
      simp [hd]
    | near definition =>
      have hd : directiveOf goal site = none := hq.directiveOf (by simp [hs])
      rcases ih with ⟨hrest, hrun⟩ | ⟨hrest, hrun⟩ <;> simp [hd, hrest, hrun, Except.map]
    | other =>
      have hd : directiveOf goal site = none := hq.directiveOf (by simp [hs])
      rcases ih with ⟨hrest, hrun⟩ | ⟨hrest, hrun⟩ <;> simp [hd, hrest, hrun]
    | silent =>
      cases hd : directiveOf goal site with
      | some directive => simp [follow, openTarget, hd]
      | none => rcases ih with ⟨hrest, hrun⟩ | ⟨hrest, hrun⟩ <;> simp [follow, hd, hrest, hrun]

theorem run_unset_error (disk : Disk) (hq : goal.Quiet) (agenda : List Site) (walk : Walk)
    (failure : Failure) :
    (run ⟨disk, none⟩ goal agenda walk).1 = .error failure ↔
      failure = .configurationMissing ∧ Stopped goal agenda := by
  rcases run_unset disk hq agenda walk with ⟨hs, hrun⟩ | ⟨hs, hrun⟩ <;> simp [hrun, hs, eq_comm]

/-- In lines that are taken in some order, the search stops at a line with a directive
if no line before it matches exactly. -/
theorem stopped_sites {before : Nat → Nat → Prop} (hasymm : ∀ a b, before a b → ¬ before b a)
    (doc : Snapshot) (shown : Text) (lines : List Nat) (hlines : lines.Pairwise before) :
    Stopped goal (sites doc lines shown) ↔
      ∃ line ∈ lines, (directiveOf goal ⟨doc, line, shown, false⟩).isSome ∧
        ∀ nearer ∈ lines, before nearer line →
          ∀ definition, goal.sign (doc.lineAt nearer) ≠ .hit definition := by
  induction lines with
  | nil =>
    constructor
    · intro h
      cases h
    · rintro ⟨line, hline, -⟩
      cases hline
  | cons first rest ih =>
    obtain ⟨hfirst, hrest⟩ := List.pairwise_cons.1 hlines
    have hnone : ∀ nearer ∈ first :: rest, ¬ before nearer first := by
      intro nearer hn hb
      rcases List.mem_cons.1 hn with rfl | hn
      · exact hasymm _ _ hb hb
      · exact hasymm _ _ hb (hfirst nearer hn)
    change Stopped goal (⟨doc, first, shown, false⟩ :: sites doc rest shown) ↔ _
    rw [stopped_cons, ih hrest]
    constructor
    · rintro (hd | ⟨hs, line, hline, hd, hbefore⟩)
      · exact ⟨first, by simp, hd, fun nearer hn hb => absurd hb (hnone nearer hn)⟩
      · refine ⟨line, by simp [hline], hd, fun nearer hn hb => ?_⟩
        rcases List.mem_cons.1 hn with rfl | hn
        · exact hs
        · exact hbefore nearer hn hb
    · rintro ⟨line, hline, hd, hbefore⟩
      rcases List.mem_cons.1 hline with rfl | hline
      · exact .inl hd
      · refine .inr ⟨hbefore first (by simp) (hfirst line hline), line, hline, hd, ?_⟩
        exact fun nearer hn => hbefore nearer (by simp [hn])

theorem unmatched_sites (doc : Snapshot) (shown : Text) (lines : List Nat) :
    Unmatched goal (sites doc lines shown) ↔
      ∀ line ∈ lines, ∀ definition, goal.sign (doc.lineAt line) ≠ .hit definition := by
  simp [Unmatched, sites, Site.text]

end Unset

end Search

/-! ## Searches without a directory -/

theorem Snapshot.upward_falls (doc : Snapshot) (top : Nat) :
    (doc.upward top).Pairwise fun line next => next < line := by
  unfold upward
  rw [List.pairwise_reverse]
  exact List.pairwise_lt_range'

theorem Snapshot.downward_rises (doc : Snapshot) :
    doc.downward.Pairwise fun line next => line < next := List.pairwise_lt_range'

namespace Instrument

variable {disk : Disk} {doc : Snapshot} {id top : Nat} {store : Store} {failure : Failure}

theorem directiveOf_goal (id : Nat) (site : Search.Site) (h : site.inBank = false) :
    Search.directiveOf (goal id) site = Directive.parse site.text := by
  unfold Search.directiveOf
  rw [h]
  simp only [goal, Bool.false_eq_true, if_false, if_true]
  split <;> simp_all

theorem sign_not_hit (id : Nat) (line : Text) :
    (∀ definition, (goal id).sign line ≠ .hit definition) ↔ definitionText line id = none := by
  cases h : definitionText line id <;> simp [goal, h]

theorem find_failure {setting : Search.Setting} {walk : Search.Walk}
    (h : (find setting doc id top walk).1 = .error failure) : Search.Missing setting failure := by
  unfold find at h
  exact Search.start_failure _ _ _ _ ((map_error _ _ _).1 h)

theorem resolve_failure {setting : Search.Setting}
    (h : (resolve setting doc id store).1 = .error failure) : Search.Missing setting failure := by
  have hfind : (find setting doc id 0 ⟨store, []⟩).1 = .error failure := h
  exact find_failure hfind

/-- A directive lies on the way up from the anchor, and no definition before it. -/
def Blocked (doc : Snapshot) (id top : Nat) : Prop :=
  ∃ line, top ≤ line ∧ line ≤ doc.anchor ∧ (Directive.parse (doc.lineAt line)).isSome ∧
    ∀ nearer, line < nearer → nearer ≤ doc.anchor →
      definitionText (doc.lineAt nearer) id = none

/-- Without a directory the search fails if it comes to a directive before it comes to a
definition. -/
theorem find_unset_error :
    (find ⟨disk, none⟩ doc id top ⟨store, []⟩).1 = .error failure ↔
      failure = .configurationMissing ∧ Blocked doc id top := by
  have hfind : (find ⟨disk, none⟩ doc id top ⟨store, []⟩).1 =
      (Search.run ⟨disk, none⟩ (goal id) (Search.sites doc (doc.upward top) doc.stem)
        ⟨store, [doc.path]⟩).1.map (·.candidates.head?) := rfl
  rw [hfind, map_error, Search.run_unset_error disk (goal_quiet id),
    Search.stopped_sites (fun _ _ => Nat.lt_asymm) doc doc.stem _ (doc.upward_falls top)]
  simp only [Snapshot.mem_upward, directiveOf_goal, sign_not_hit, Search.Site.text]
  refine and_congr_right fun _ => ⟨?_, ?_⟩
  · rintro ⟨line, ⟨htop, hline⟩, hd, hnearer⟩
    refine ⟨line, htop, hline, hd, fun nearer hlt hle => ?_⟩
    exact hnearer nearer ⟨by omega, hle⟩ hlt
  · rintro ⟨line, htop, hline, hd, hnearer⟩
    exact ⟨line, ⟨htop, hline⟩, hd, fun nearer hn hlt => hnearer nearer hlt hn.2⟩

end Instrument

namespace Variable

variable {disk : Disk} {doc : Snapshot} {token : Token} {shown : Text} {store : Store}
  {failure : Failure}

def Includes (doc : Snapshot) (line : Nat) : Prop :=
  ∃ name, Directive.parse (doc.lineAt line) = some (.inclusion name)

def Defines (doc : Snapshot) (token : Token) (line : Nat) : Prop :=
  ∃ definition, Relates token .exactly (doc.lineAt line) definition

/-- An inclusion lies on the way up from the anchor, and no exact match before it. -/
def BlockedAbove (doc : Snapshot) (token : Token) : Prop :=
  ∃ line, line ≤ doc.anchor ∧ Includes doc line ∧
    ∀ nearer, line < nearer → nearer ≤ doc.anchor → ¬ Defines doc token nearer

/-- The way up holds neither inclusion nor exact match, and an inclusion lies on the way
down with no exact match before it. -/
def BlockedBelow (doc : Snapshot) (token : Token) : Prop :=
  (∀ line, line ≤ doc.anchor → ¬ Includes doc line ∧ ¬ Defines doc token line) ∧
    ∃ line, doc.anchor < line ∧ Includes doc line ∧
      ∀ nearer, doc.anchor < nearer → nearer < line → ¬ Defines doc token nearer

theorem directiveOf_goal (doc : Snapshot) (token : Token) (line : Nat) (shown : Text) :
    (Search.directiveOf (goal token) ⟨doc, line, shown, false⟩).isSome ↔ Includes doc line := by
  unfold Search.directiveOf Includes
  simp only [goal, Bool.false_eq_true, if_false, Search.Site.text]
  split
  · rename_i hp
    simp [hp]
  · rename_i directive hne
    cases hp : Directive.parse (doc.lineAt line) with
    | none => simp
    | some directive =>
      cases directive with
      | bank name => exact absurd hp (hne name)
      | inclusion name => simp

theorem sign_not_hit (doc : Snapshot) (token : Token) (line : Nat) :
    (∀ definition, (goal token).sign (doc.lineAt line) ≠ .hit definition) ↔
      ¬ Defines doc token line := by
  simp [Defines, sign_hit]

theorem stopped_above :
    Search.Stopped (goal token) (Search.sites doc (doc.upward 0) shown) ↔
      BlockedAbove doc token := by
  rw [Search.stopped_sites (fun _ _ => Nat.lt_asymm) doc shown _ (doc.upward_falls 0)]
  simp only [Snapshot.mem_upward, directiveOf_goal, sign_not_hit, Nat.zero_le, true_and]
  refine exists_congr fun line => and_congr_right fun _ => and_congr_right fun _ => ?_
  exact forall_congr' fun nearer => forall_comm

theorem Includes.inside {line : Nat} (h : Includes doc line) : line < doc.lines.length := by
  obtain ⟨name, hname⟩ := h
  refine Nat.lt_of_not_le fun hge => ?_
  have hnil : doc.lineAt line = [] := by simp [Snapshot.lineAt, hge]
  rw [hnil] at hname
  cases hname

theorem stopped_below :
    Search.Stopped (goal token) (Search.sites doc doc.downward shown) ↔
      ∃ line, doc.anchor < line ∧ Includes doc line ∧
        ∀ nearer, doc.anchor < nearer → nearer < line → ¬ Defines doc token nearer := by
  rw [Search.stopped_sites (fun _ _ => Nat.lt_asymm) doc shown _ doc.downward_rises]
  simp only [Snapshot.mem_downward, directiveOf_goal, sign_not_hit]
  constructor
  · rintro ⟨line, ⟨habove, hlast⟩, hd, hnearer⟩
    refine ⟨line, habove, hd, fun nearer ha hlt => ?_⟩
    exact hnearer nearer ⟨ha, by omega⟩ hlt
  · rintro ⟨line, habove, hd, hnearer⟩
    exact ⟨line, ⟨habove, hd.inside⟩, hd, fun nearer hn hlt => hnearer nearer hn.1 hlt⟩

theorem candidates_unset (disk : Disk) (doc : Snapshot) (token : Token) (shown : Text)
    (direction : Direction) (store : Store) (lines : List Nat)
    (hlines : direction.lines doc = lines) :
    (Search.Stopped (goal token) (Search.sites doc lines shown) ∧
        candidates ⟨disk, none⟩ doc token shown direction ⟨store, []⟩ =
          (.error .configurationMissing, ⟨store, [doc.path]⟩)) ∨
      (¬ Search.Stopped (goal token) (Search.sites doc lines shown) ∧
        candidates ⟨disk, none⟩ doc token shown direction ⟨store, []⟩ =
          (.ok (Search.answer (goal token) (Search.sites doc lines shown)),
            ⟨store, [doc.path]⟩)) := by
  subst hlines
  exact Search.run_unset disk (goal_quiet token) _ ⟨store, [doc.path]⟩

theorem uncut_iff (lines : List Search.Site) :
    (Search.answer (goal token) lines).shortCircuited = false ↔
      Search.Unmatched (goal token) lines := by
  refine ⟨unmatched_of_uncut _ _, fun hu => ?_⟩
  rw [Search.answer_eq, (Search.unmatched_iff _ _).1 hu]

/-- The second pass is made only if the first ends without an exact match. -/
theorem resolve_unset (disk : Disk) (shown : Text) (store : Store) :
    (resolve ⟨disk, none⟩ doc token shown store).1 = .error failure ↔
      failure = .configurationMissing ∧
        (Search.Stopped (goal token) (Search.sites doc (doc.upward 0) shown) ∨
          Search.Unmatched (goal token) (Search.sites doc (doc.upward 0) shown) ∧
            Search.Stopped (goal token) (Search.sites doc doc.downward shown)) := by
  unfold resolve
  rcases candidates_unset disk doc token shown (.backward 0) store (doc.upward 0) rfl with
    ⟨hup, habove⟩ | ⟨hup, habove⟩
  · simp [habove, hup, eq_comm]
  · by_cases hu : Search.Unmatched (goal token) (Search.sites doc (doc.upward 0) shown)
    · have hcut := (uncut_iff _).2 hu
      rcases candidates_unset disk doc token shown .forward store doc.downward rfl with
        ⟨hdown, hbelow⟩ | ⟨hdown, hbelow⟩
      · simp [habove, hcut, hbelow, hup, hu, hdown, eq_comm]
      · simp only [habove, hcut, hbelow, hup, hdown, Bool.false_eq_true, if_false, and_false,
          or_self, iff_false]
        split <;> simp
    · have hcut := eq_true_of_ne_false (mt (uncut_iff _).1 hu)
      simp [habove, hcut, hup, hu]

theorem unmatched_above :
    Search.Unmatched (goal token) (Search.sites doc (doc.upward 0) shown) ↔
      ∀ line, line ≤ doc.anchor → ¬ Defines doc token line := by
  rw [Search.unmatched_sites]
  simp only [Snapshot.mem_upward, Nat.zero_le, true_and, sign_not_hit]

theorem resolve_unset_error (disk : Disk) (shown : Text) (store : Store) :
    (resolve ⟨disk, none⟩ doc token shown store).1 = .error failure ↔
      failure = .configurationMissing ∧ (BlockedAbove doc token ∨ BlockedBelow doc token) := by
  rw [resolve_unset, stopped_above, unmatched_above, stopped_below]
  refine and_congr_right fun _ => ⟨?_, ?_⟩
  · rintro (habove | ⟨hnone, hbelow⟩)
    · exact .inl habove
    · by_cases hinclusion : ∃ line, line ≤ doc.anchor ∧ Includes doc line
      · obtain ⟨line, hline, hd⟩ := hinclusion
        exact .inl ⟨line, hline, hd, fun nearer _ hle => hnone nearer hle⟩
      · refine .inr ⟨fun line hle => ⟨fun hd => ?_, hnone line hle⟩, hbelow⟩
        exact hinclusion ⟨line, hle, hd⟩
  · rintro (habove | ⟨hnone, hbelow⟩)
    · exact .inl habove
    · exact .inr ⟨fun line hle => (hnone line hle).2, hbelow⟩

theorem candidates_failure {setting : Search.Setting} {direction : Direction}
    {walk : Search.Walk}
    (h : (candidates setting doc token shown direction walk).1 = .error failure) :
    Search.Missing setting failure := Search.start_failure _ _ _ _ h

theorem resolve_failure {setting : Search.Setting}
    (h : (resolve setting doc token shown store).1 = .error failure) :
    Search.Missing setting failure := by
  unfold resolve at h
  split at h
  · rename_i other walk hc
    cases h
    exact candidates_failure (congrArg Prod.fst hc)
  · split at h
    · cases h
    · split at h
      · rename_i other walk hc
        cases h
        exact candidates_failure (congrArg Prod.fst hc)
      · split at h <;> cases h

end Variable

/-! ## Questions -/

namespace Lookup

open Search (Setting)

theorem instrumentAt_failure {text : Text} {column : Nat} {failure : Failure}
    (h : Cursor.instrumentAt text column = .error failure) :
    ∃ token, failure = .malformedToken token := by
  unfold Cursor.instrumentAt at h
  dsimp only at h
  split at h
  · cases h
  · split at h
    · cases h
    · cases h
      exact ⟨_, rfl⟩

theorem variableAt_failure {text : Text} {column : Nat} {failure : Failure}
    (h : Cursor.variableAt text column = .error failure) :
    ∃ token, failure = .malformedToken token := by
  unfold Cursor.variableAt at h
  dsimp only at h
  split at h
  · cases h
  · rw [map_error] at h
    unfold Cursor.VariableMark.token at h
    split at h
    · cases h
    · split at h
      · cases h
      · cases h
        exact ⟨_, rfl⟩

theorem referenceAt_failure {text : Text} {column : Nat} {failure : Failure}
    (h : referenceAt text column = .error failure) : ∃ token, failure = .malformedToken token := by
  unfold referenceAt at h
  split at h
  · rename_i other hi
    cases h
    exact instrumentAt_failure hi
  · cases h
  · exact variableAt_failure ((map_error _ _ _).1 h)

section Cursor

variable {setting : Setting} {store : Store} {path : Path} {line column : Nat}
  {failure : Failure}

theorem seek_failure {doc : Snapshot} {reference : Reference}
    (h : (seek setting doc store reference).1 = .error failure) :
    Search.Missing setting failure := by
  cases reference with
  | instrument id => exact Instrument.resolve_failure h
  | token token => exact Variable.resolve_failure h

theorem instrumentAbove_failure {anchor id : Nat}
    (h : (instrumentAbove setting store path anchor id).1 = .error failure) :
    Search.Missing setting failure := by
  unfold instrumentAbove at h
  split at h
  · cases h
  · exact Instrument.resolve_failure h

theorem variableAround_failure {anchor : Nat} {token : Token}
    (h : (variableAround setting store path anchor token).1 = .error failure) :
    Search.Missing setting failure := by
  unfold variableAround at h
  split at h
  · cases h
  · exact Variable.resolve_failure h

/-- The reference under the cursor, in a document that loads and on a line that is
asked about, cannot be read. -/
def Misread (setting : Setting) (store : Store) (path : Path) (line column : Nat)
    (asked : Text → Prop) (failure : Failure) : Prop :=
  ∃ doc after text, store.load setting.disk path (some line) = .ok (doc, after) ∧
    doc.lines[line]? = some text ∧ asked text ∧ referenceAt text column = .error failure

structure CursorFailures {α : Type} (setting : Setting) (store : Store) (path : Path)
    (line column : Nat) (asked : Text → Prop) (result : Except Failure α) : Prop where
  /-- The queried document cannot be read. What it names does not count. -/
  unreadable_iff : ∀ named fault, result = .error (.unreadable named fault) ↔
    named = path ∧ store.Unreadable setting.disk path fault
  malformed_iff : ∀ token, result = .error (.malformedToken token) ↔
    Misread setting store path line column asked (.malformedToken token)
  others : ∀ failure, result = .error failure → Search.Missing setting failure ∨
    (∃ named fault, failure = .unreadable named fault) ∨ ∃ token, failure = .malformedToken token

theorem cursorFailures_of {α : Type} {asked : Text → Prop} {result : Except Failure α}
    (hload : ∀ failure, store.load setting.disk path (some line) = .error failure →
      result = .error failure)
    (hpast : ∀ doc after, store.load setting.disk path (some line) = .ok (doc, after) →
      doc.lines[line]? = none → ∃ answer, result = .ok answer)
    (hread : ∀ doc after text, store.load setting.disk path (some line) = .ok (doc, after) →
      doc.lines[line]? = some text → asked text → ∀ failure,
        referenceAt text column = .error failure → result = .error failure)
    (hline : ∀ doc after text, store.load setting.disk path (some line) = .ok (doc, after) →
      doc.lines[line]? = some text → ∀ failure, result = .error failure →
        Search.Missing setting failure ∨
          asked text ∧ referenceAt text column = .error failure) :
    CursorFailures setting store path line column asked result := by
  -- a failure comes from the load, the reference, or a search without an environment
  have hfails (failure : Failure) (h : result = .error failure) :
      Search.Missing setting failure ∨
        store.load setting.disk path (some line) = .error failure ∨
          Misread setting store path line column asked failure := by
    cases hl : store.load setting.disk path (some line) with
    | error other =>
      rw [hload other hl] at h
      cases h
      exact .inr (.inl rfl)
    | ok loaded =>
      obtain ⟨doc, after⟩ := loaded
      cases ht : doc.lines[line]? with
      | none =>
        obtain ⟨answer, hanswer⟩ := hpast doc after hl ht
        rw [hanswer] at h
        cases h
      | some text =>
        rcases hline doc after text hl ht failure h with hm | ⟨hasked, hr⟩
        · exact .inl hm
        · exact .inr (.inr ⟨doc, after, text, hl, ht, hasked, hr⟩)
  refine ⟨fun named fault => ⟨fun h => ?_, ?_⟩, fun token => ⟨fun h => ?_, ?_⟩, fun failure h => ?_⟩
  · rcases hfails _ h with hm | hl | ⟨doc, after, text, -, -, -, hr⟩
    · cases hm.1
    · obtain ⟨other, hu, hother⟩ := (Store.load_error_iff _ _ _ _ _).1 hl
      cases hother
      exact ⟨rfl, hu⟩
    · obtain ⟨token, htoken⟩ := referenceAt_failure hr
      cases htoken
  · rintro ⟨rfl, hu⟩
    exact hload _ ((Store.load_error_iff _ _ _ _ _).2 ⟨fault, hu, rfl⟩)
  · rcases hfails _ h with hm | hl | hr
    · cases hm.1
    · obtain ⟨other, hu, hother⟩ := (Store.load_error_iff _ _ _ _ _).1 hl
      cases hother
    · exact hr
  · rintro ⟨doc, after, text, hl, ht, hasked, hr⟩
    exact hread doc after text hl ht hasked _ hr
  · rcases hfails _ h with hm | hl | ⟨doc, after, text, -, -, -, hr⟩
    · exact .inl hm
    · obtain ⟨fault, -, hfault⟩ := (Store.load_error_iff _ _ _ _ _).1 hl
      exact .inr (.inl ⟨path, fault, hfault⟩)
    · exact .inr (.inr (referenceAt_failure hr))

theorem hover_failures (setting : Setting) (store : Store) (path : Path) (line column : Nat) :
    CursorFailures setting store path line column (fun _ => True)
      (hover setting store path line column).1 := by
  apply cursorFailures_of
  · intro failure hl
    rw [hover, hl]
  · intro doc after hl ht
    exact ⟨none, by simp only [hover, hl, ht]⟩
  · intro doc after text hl ht _ failure hr
    rw [hover_line hl ht, hr]
  · intro doc after text hl ht failure h
    rw [hover_line hl ht] at h
    generalize referenceAt text column = read at h ⊢
    rcases read with other | _ | reference
    · cases h
      exact .inr ⟨trivial, rfl⟩
    · cases h
    · dsimp only at h
      split at h
      · cases h
      · exact .inl (seek_failure ((map_error _ _ _).1 h))

theorem definition_failures (setting : Setting) (store : Store) (path : Path)
    (line column : Nat) :
    CursorFailures setting store path line column
      (fun text => Table.ofLine text = none ∧ Directive.parse text = none)
      (definition setting store path line column).1 := by
  apply cursorFailures_of
  · intro failure hl
    rw [definition, hl]
  · intro doc after hl ht
    exact ⟨none, by simp only [definition, hl, ht]⟩
  · intro doc after text hl ht hasked failure hr
    rw [definition_line hl ht hasked.1 hasked.2, hr]
  · intro doc after text hl ht failure h
    cases htable : Table.ofLine text with
    | some table =>
      rw [definition_tabled hl ht table htable] at h
      cases h
    | none =>
      cases hdirective : Directive.parse text with
      | some directive =>
        rw [definition_directive hl ht htable directive hdirective] at h
        split at h
        · rename_i he
          cases h
          exact .inl ⟨rfl, he⟩
        · cases h
      | none =>
        rw [definition_line hl ht htable hdirective] at h
        generalize referenceAt text column = read at h ⊢
        rcases read with other | _ | reference
        · cases h
          exact .inr ⟨⟨rfl, rfl⟩, rfl⟩
        · cases h
        · exact .inl (seek_failure ((map_error _ _ _).1 h))

end Cursor

/-! ## All together -/

theorem ok_of_failure {α : Type} (result : Except Failure α)
    (h : ∀ failure, result ≠ .error failure) : ∃ answer, result = .ok answer := by
  cases result with
  | error failure => exact absurd rfl (h failure)
  | ok answer => exact ⟨answer, rfl⟩

structure Escaping (disk : Disk) : Prop where
  /-- With an environment directory the search for an instrument answers, whatever the
  files hold and whatever has been entered before. -/
  find_answers : ∀ environment doc id top walk,
    ∃ found, (Instrument.find ⟨disk, some environment⟩ doc id top walk).1 = .ok found
  candidates_answer : ∀ environment doc token shown direction walk, ∃ outcome,
    (Variable.candidates ⟨disk, some environment⟩ doc token shown direction walk).1 = .ok outcome
  resolve_answers : ∀ environment doc token shown store,
    ∃ found, (Variable.resolve ⟨disk, some environment⟩ doc token shown store).1 = .ok found
  find_unset : ∀ doc id top store failure,
    (Instrument.find ⟨disk, none⟩ doc id top ⟨store, []⟩).1 = .error failure ↔
      failure = .configurationMissing ∧ Instrument.Blocked doc id top
  resolve_unset : ∀ doc token shown store failure,
    (Variable.resolve ⟨disk, none⟩ doc token shown store).1 = .error failure ↔
      failure = .configurationMissing ∧
        (Variable.BlockedAbove doc token ∨ Variable.BlockedBelow doc token)
  /-- Banks do not make it fail. -/
  banks_pass : ∀ doc token shown store, (∀ line, ¬ Variable.Includes doc line) →
    ∃ found, (Variable.resolve ⟨disk, none⟩ doc token shown store).1 = .ok found
  instrumentAbove_fails : ∀ environment store path anchor id failure,
    (instrumentAbove ⟨disk, environment⟩ store path anchor id).1 = .error failure →
      failure = .configurationMissing ∧ environment = none
  variableAround_fails : ∀ environment store path anchor token failure,
    (variableAround ⟨disk, environment⟩ store path anchor token).1 = .error failure →
      failure = .configurationMissing ∧ environment = none
  hover_fails : ∀ environment store path line column,
    CursorFailures ⟨disk, environment⟩ store path line column (fun _ => True)
      (hover ⟨disk, environment⟩ store path line column).1
  definition_fails : ∀ environment store path line column,
    CursorFailures ⟨disk, environment⟩ store path line column
      (fun text => Table.ofLine text = none ∧ Directive.parse text = none)
      (definition ⟨disk, environment⟩ store path line column).1

theorem failures_escape (disk : Disk) : Escaping disk where
  find_answers := by
    intro environment doc id top walk
    apply ok_of_failure
    intro failure h
    cases (Instrument.find_failure h).2
  candidates_answer := by
    intro environment doc token shown direction walk
    apply ok_of_failure
    intro failure h
    cases (Variable.candidates_failure h).2
  resolve_answers := by
    intro environment doc token shown store
    apply ok_of_failure
    intro failure h
    cases (Variable.resolve_failure h).2
  find_unset := fun _ _ _ _ _ => Instrument.find_unset_error
  resolve_unset := fun _ _ shown store _ => Variable.resolve_unset_error disk shown store
  banks_pass := by
    intro doc token shown store hbanks
    apply ok_of_failure
    intro failure h
    obtain ⟨-, hinclusion⟩ := (Variable.resolve_unset_error disk shown store).1 h
    rcases hinclusion with ⟨line, -, hd, -⟩ | ⟨-, line, -, hd, -⟩
    · exact hbanks line hd
    · exact hbanks line hd
  instrumentAbove_fails := fun _ _ _ _ _ _ h => instrumentAbove_failure h
  variableAround_fails := fun _ _ _ _ _ _ h => variableAround_failure h
  hover_fails := fun environment => hover_failures ⟨disk, environment⟩
  definition_fails := fun environment => definition_failures ⟨disk, environment⟩

end Lookup

end MmlLookup
