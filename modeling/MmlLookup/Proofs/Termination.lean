import Mathlib.Data.Set.Card
import MmlLookup.Instrument
import MmlLookup.Proofs.Bounded
import MmlLookup.Variable

/-!
# A search comes to an end

A search takes the line in front of its agenda and goes on with what the line leads to.
Each turn leaves fewer documents that load and have not been entered, or no more of
them and fewer lines, so there is a last turn. Along the turns documents are entered
and never left, one document once, whatever paths it is included by. So a search enters
no more documents than load, beside the one it starts in.
-/

set_option autoImplicit false

namespace MmlLookup

namespace Store

def loadableKeys (store : Store) (disk : Disk) : Set Text :=
  {key | ∃ path loaded, path.key disk.home = key ∧ store.load disk path none = .ok loaded}

theorem loadableKeys_finite (store : Store) (disk : Disk) : (store.loadableKeys disk).Finite := by
  apply (List.finite_toSet (store.knownKeys disk)).subset
  rintro key ⟨path, loaded, rfl, hl⟩
  exact load_known store disk path none loaded.1 loaded.2 hl

/-- A path loads if the buffer stands for it, if it is kept, or if it can be read. -/
theorem load_ok_iff (store : Store) (disk : Disk) (path : Path) (anchor : Option Nat) :
    (∃ loaded, store.load disk path anchor = .ok loaded) ↔
      (store.buffer? disk.home path).isSome ∨ (store.fresh? disk path).isSome ∨
        ∃ reading, disk.read path = .ok reading := by
  unfold load Store.lines
  cases hb : store.buffer? disk.home path with
  | some buffer => simp
  | none =>
    cases hf : store.fresh? disk path with
    | some lines => simp
    | none => cases hr : disk.read path <;> simp

theorem cached?_insert_of_ne (store : Store) (key other : Text) (entry : Cached)
    (h : other ≠ key) : (store.insert key entry).cached? other = store.cached? other := by
  have hfind : (store.cache.filter (·.1 ≠ key)).find? (·.1 = other) =
      store.cache.find? (·.1 = other) := by
    rw [List.find?_filter]
    congr 1
    funext found
    by_cases hk : found.1 = other
    · simp [hk, h]
    · simp [hk]
  simp only [cached?, insert, List.find?_cons, h.symm, decide_false, hfind]

/-- What a load leaves in the cache loads no document that did not load before. -/
theorem load_loadableKeys (store after : Store) (disk : Disk) (path : Path) (doc : Snapshot)
    (h : store.load disk path none = .ok (doc, after)) :
    after.loadableKeys disk ⊆ store.loadableKeys disk := by
  rintro key ⟨other, loaded, rfl, hl⟩
  have hserved := (load_served store disk path none doc after h).2
  generalize doc.lines = lines at hserved
  cases hserved with
  | buffer buffer hb => exact ⟨other, loaded, rfl, hl⟩
  | kept entry hb hc hm => exact ⟨other, loaded, rfl, hl⟩
  | read text modified hb hr =>
    by_cases hk : other.key disk.home = path.key disk.home
    · exact ⟨path, _, hk.symm, h⟩
    · have hok := (load_ok_iff _ disk other none).1 ⟨loaded, hl⟩
      simp only [fresh?, cached?_insert_of_ne store _ _ _ hk] at hok
      obtain ⟨found, hfound⟩ := (load_ok_iff store disk other none).2 hok
      exact ⟨other, found, rfl, hfound⟩

end Store

namespace Search

/-! ## Turns -/

abbrev Moment := List Site × Walk

/-- The moment a search starts at: a document entered before has no lines to be taken. -/
def opening (home : Trail) (doc : Snapshot) (lines : List Nat) (shown : Text) (walk : Walk) :
    Moment :=
  if walk.hasEntered home doc.path then ([], walk) else (sites doc lines shown, walk.enter doc.path)

/-- The search takes the line in front and goes on. A line that matches exactly, and a
directive that cannot be followed, are not gone on from. -/
inductive Turn (setting : Setting) (goal : Goal) : Moment → Moment → Prop
  | near (site : Site) (rest : List Site) (walk : Walk) (definition : Text) :
      goal.sign site.text = .near definition → Turn setting goal (site :: rest, walk) (rest, walk)
  | other (site : Site) (rest : List Site) (walk : Walk) :
      goal.sign site.text = .other → Turn setting goal (site :: rest, walk) (rest, walk)
  | silent (site : Site) (rest ahead : List Site) (walk after : Walk) :
      goal.sign site.text = .silent → follow setting goal site walk = .ok (ahead, after) →
      Turn setting goal (site :: rest, walk) (ahead ++ rest, after)

def Walk.unentered (walk : Walk) (disk : Disk) : Set Text :=
  {key | key ∈ walk.store.loadableKeys disk ∧ ∀ path ∈ walk.visited, path.key disk.home ≠ key}

/-- What is left at a moment: documents to enter, lines to search for directives, lines. -/
noncomputable def left (disk : Disk) (moment : Moment) : Nat × Nat × Nat :=
  ((moment.2.unentered disk).ncard, followed moment.1, moment.1.length)

def Less : Nat × Nat × Nat → Nat × Nat × Nat → Prop :=
  Prod.Lex (· < ·) (Prod.Lex (· < ·) (· < ·))

theorem less_wellFounded : WellFounded Less :=
  (Prod.lex ⟨_, wellFounded_lt⟩ (Prod.lex ⟨_, wellFounded_lt⟩ ⟨_, wellFounded_lt⟩)).wf

theorem less_of_le {n m : Nat} {lines others : Nat × Nat} (h : n ≤ m)
    (hless : Less (m, lines) (m, others)) : Less (n, lines) (m, others) := by
  rcases h.eq_or_lt with rfl | hlt
  · exact hless
  · exact Prod.Lex.left _ _ hlt

theorem hasEntered_false (walk : Walk) (home : Trail) (path : Path) :
    walk.hasEntered home path = false ↔
      ∀ entered ∈ walk.visited, entered.key home ≠ path.key home := by
  simp [Walk.hasEntered, Path.sameDocument]

theorem unentered_finite (walk : Walk) (disk : Disk) : (walk.unentered disk).Finite :=
  (walk.store.loadableKeys_finite disk).subset fun _ h => h.1

section Turns

variable {disk : Disk} {environment : Path} {setting : Setting} {goal : Goal} {site : Site}
  {walk after : Walk} {scanned ahead : List Site} {moment next : Moment}

theorem follow_step (h : follow setting goal site walk = .ok (ahead, after)) :
    ∃ environment scanned entered,
      Step setting.disk environment goal site walk scanned entered after ∧
        ahead = scanned ++ entered := by
  obtain ⟨disk, environment⟩ := setting
  cases environment with
  | some environment =>
    obtain ⟨scanned, entered, last, hstep⟩ := step_exists disk environment goal site walk
    rw [hstep.follow] at h
    cases h
    exact ⟨environment, scanned, entered, hstep, rfl⟩
  | none =>
    cases hd : directiveOf goal site with
    | none =>
      simp only [follow, hd] at h
      cases h
      exact ⟨[], [], [], .plain hd, rfl⟩
    | some directive => simp [follow, openTarget, hd] at h

theorem Step.loadableKeys (h : Step disk environment goal site walk scanned ahead after) :
    after.store.loadableKeys disk ⊆ walk.store.loadableKeys disk := by
  cases h with
  | plain hd => exact subset_rfl
  | missing directive failure hd hl => exact subset_rfl
  | bank name doc store hd hl => exact Store.load_loadableKeys _ _ _ _ _ hl
  | again name doc store hd hl hv => exact Store.load_loadableKeys _ _ _ _ _ hl
  | entered name doc store hd hl hv => exact Store.load_loadableKeys _ _ _ _ _ hl

theorem Step.unentered (h : Step disk environment goal site walk scanned ahead after) :
    after.unentered disk ⊆ walk.unentered disk := by
  rintro key ⟨hk, hv⟩
  exact ⟨h.loadableKeys hk, fun path hp => hv path (h.visited path hp)⟩

/-- An included document is one of those that load and have not been entered. -/
theorem Step.less (h : Step disk environment goal site walk scanned ahead after)
    (rest : List Site) :
    Less (left disk (scanned ++ ahead ++ rest, after)) (left disk (site :: rest, walk)) := by
  have hle : (after.unentered disk).ncard ≤ (walk.unentered disk).ncard :=
    Set.ncard_le_ncard h.unentered (unentered_finite walk disk)
  cases h with
  | plain hd => exact less_of_le hle (pop_decreases _ _ _)
  | missing directive failure hd hl => exact less_of_le hle (pop_decreases _ _ _)
  | again name doc store hd hl hv => exact less_of_le hle (pop_decreases _ _ _)
  | bank name doc store hd hl =>
    rw [List.append_nil]
    exact less_of_le hle (bank_decreases _ goal site rest doc name _ hd)
  | entered name doc store hd hl hv =>
    refine Prod.Lex.left _ _ (Set.ncard_lt_ncard ?_ (unentered_finite walk disk))
    refine ⟨(Step.entered name doc store hd hl hv).unentered, fun hall => ?_⟩
    have hpath := Store.load_path _ _ _ _ _ _ hl
    have hnew : doc.path.key disk.home ∈ walk.unentered disk :=
      ⟨⟨_, (doc, store), by rw [hpath], hl⟩, (hasEntered_false _ _ _).1 hv⟩
    exact (hall hnew).2 doc.path (by simp [Walk.enter]) rfl

theorem Turn.less (h : Turn setting goal moment next) :
    Less (left setting.disk next) (left setting.disk moment) := by
  cases h with
  | near site rest walk definition hs => exact pop_decreases _ _ _
  | other site rest walk hs => exact pop_decreases _ _ _
  | silent site rest ahead walk after hs hf =>
    obtain ⟨environment, scanned, entered, hstep, rfl⟩ := follow_step hf
    exact hstep.less rest

theorem turn_wellFounded (setting : Setting) (goal : Goal) :
    WellFounded fun next moment => Turn setting goal moment next :=
  Subrelation.wf (fun h => Turn.less h) (InvImage.wf (left setting.disk) less_wellFounded)

/-! ## The whole run -/

theorem within_of_run (setting : Setting) (goal : Goal) (agenda : List Site) (walk : Walk) :
    ∃ n, within setting goal id n agenda walk = some (run setting goal agenda walk) := by
  induction agenda, walk using run.induct setting goal with
  | case1 walk => exact ⟨1, by rw [run_nil, within]⟩
  | case2 walk site rest definition hs => exact ⟨1, by rw [run_cons, within]; simp only [hs]⟩
  | case3 walk site rest definition hs _ _ _ ih =>
    obtain ⟨n, hn⟩ := ih
    exact ⟨n + 1, by rw [run_cons, within]; simp only [hs, hn, Option.map_some]⟩
  | case4 walk site rest hs ih =>
    obtain ⟨n, hn⟩ := ih
    exact ⟨n + 1, by rw [run_cons, within]; simp only [hs, hn]⟩
  | case5 walk site rest hs failure hf =>
    exact ⟨1, by rw [run_cons, within]; simp only [hs, id_eq, hf]⟩
  | case6 walk site rest hs ahead after hf ih =>
    obtain ⟨n, hn⟩ := ih
    exact ⟨n + 1, by rw [run_cons, within]; simp only [hs, id_eq, hf, hn]⟩

theorem run_turns (setting : Setting) (goal : Goal) (agenda : List Site) (walk : Walk) :
    ∃ rest, Relation.ReflTransGen (Turn setting goal) (agenda, walk)
        (rest, (run setting goal agenda walk).2) ∧
      ∀ next, ¬ Turn setting goal (rest, (run setting goal agenda walk).2) next := by
  induction agenda, walk using run.induct setting goal with
  | case1 walk =>
    rw [run_nil]
    refine ⟨[], .refl, fun next h => ?_⟩
    cases h
  | case2 walk site rest definition hs =>
    rw [run_cons, hs]
    refine ⟨site :: rest, .refl, fun next h => ?_⟩
    cases h <;> simp_all
  | case3 walk site rest definition hs _ _ _ ih =>
    rw [run_cons, hs]
    obtain ⟨last, hturns, hstop⟩ := ih
    exact ⟨last, .head (.near site rest walk definition hs) hturns, hstop⟩
  | case4 walk site rest hs ih =>
    rw [run_cons, hs]
    obtain ⟨last, hturns, hstop⟩ := ih
    exact ⟨last, .head (.other site rest walk hs) hturns, hstop⟩
  | case5 walk site rest hs failure hf =>
    rw [run_cons, hs]
    simp only [hf]
    refine ⟨site :: rest, .refl, fun next h => ?_⟩
    cases h <;> simp_all
  | case6 walk site rest hs ahead after hf ih =>
    rw [run_cons, hs]
    simp only [hf]
    obtain ⟨last, hturns, hstop⟩ := ih
    exact ⟨last, .head (.silent site rest ahead walk after hs hf) hturns, hstop⟩

/-! ## What is entered -/

/-- What a walk has entered since it was another: each document once, none that had been
entered then, and only documents that loaded then. -/
structure Since (disk : Disk) (before after : Walk) (entered : List Path) : Prop where
  visited : after.visited = before.visited ++ entered
  fresh : ∀ path ∈ entered, before.hasEntered disk.home path = false
  once : (entered.map (Path.key disk.home)).Nodup
  loads : ∀ path ∈ entered, path.key disk.home ∈ before.store.loadableKeys disk
  loadable : after.store.loadableKeys disk ⊆ before.store.loadableKeys disk

theorem Since.refl (disk : Disk) (walk : Walk) : Since disk walk walk [] where
  visited := (List.append_nil _).symm
  fresh := by simp
  once := List.nodup_nil
  loads := by simp
  loadable := subset_rfl

theorem Since.enter {before : Walk} {entered : List Path} {store : Store} {path : Path}
    (h : Since disk before walk entered) (hv : walk.hasEntered disk.home path = false)
    (hl : path.key disk.home ∈ walk.store.loadableKeys disk)
    (hs : store.loadableKeys disk ⊆ walk.store.loadableKeys disk) :
    Since disk before ({ walk with store }.enter path) (entered ++ [path]) where
  visited := by simp [Walk.enter, h.visited]
  fresh := by
    intro other ho
    rcases List.mem_append.1 ho with ho | ho
    · exact h.fresh other ho
    · obtain rfl := List.mem_singleton.1 ho
      rw [hasEntered_false] at hv ⊢
      exact fun first hf => hv first (by simp [h.visited, hf])
  once := by
    rw [List.map_append, List.nodup_append]
    refine ⟨h.once, List.nodup_singleton _, ?_⟩
    intro key hk other ho
    obtain ⟨first, hf, rfl⟩ := List.mem_map.1 hk
    have hother : other = path.key disk.home := by simpa using ho
    rw [hother]
    exact (hasEntered_false _ _ _).1 hv first (by simp [h.visited, hf])
  loads := by
    intro other ho
    rcases List.mem_append.1 ho with ho | ho
    · exact h.loads other ho
    · obtain rfl := List.mem_singleton.1 ho
      exact h.loadable hl
  loadable := hs.trans h.loadable

theorem Step.since {before : Walk} {entered : List Path}
    (h : Step disk environment goal site walk scanned ahead after)
    (hsince : Since disk before walk entered) :
    ∃ more, Since disk before after (entered ++ more) := by
  have hkeep (store : Store) (hs : store.loadableKeys disk ⊆ walk.store.loadableKeys disk) :
      Since disk before { walk with store } (entered ++ []) := by
    rw [List.append_nil]
    exact { hsince with loadable := hs.trans hsince.loadable }
  cases h with
  | plain hd => exact ⟨[], hkeep walk.store subset_rfl⟩
  | missing directive failure hd hl => exact ⟨[], hkeep walk.store subset_rfl⟩
  | bank name doc store hd hl => exact ⟨[], hkeep store (Store.load_loadableKeys _ _ _ _ _ hl)⟩
  | again name doc store hd hl hv =>
    exact ⟨[], hkeep store (Store.load_loadableKeys _ _ _ _ _ hl)⟩
  | entered name doc store hd hl hv =>
    have hpath := Store.load_path _ _ _ _ _ _ hl
    exact ⟨[doc.path], hsince.enter hv ⟨_, (doc, store), by rw [hpath], hl⟩
      (Store.load_loadableKeys _ _ _ _ _ hl)⟩

theorem Turn.since {before : Walk} {entered : List Path} (h : Turn setting goal moment next)
    (hsince : Since setting.disk before moment.2 entered) :
    ∃ more, Since setting.disk before next.2 (entered ++ more) := by
  cases h with
  | near site rest walk definition hs => exact ⟨[], by rwa [List.append_nil]⟩
  | other site rest walk hs => exact ⟨[], by rwa [List.append_nil]⟩
  | silent site rest ahead walk after hs hf =>
    obtain ⟨environment, scanned, ahead, hstep, -⟩ := follow_step hf
    exact hstep.since hsince

theorem Turn.grows (h : Turn setting goal moment next) :
    moment.2.visited <+: next.2.visited := by
  obtain ⟨more, hmore⟩ := h.since (Since.refl setting.disk moment.2)
  exact ⟨_, hmore.visited.symm⟩

theorem turns_since (h : Relation.ReflTransGen (Turn setting goal) moment next) :
    ∃ entered, Since setting.disk moment.2 next.2 entered := by
  induction h with
  | refl => exact ⟨[], .refl _ _⟩
  | tail _ hturn ih =>
    obtain ⟨entered, hsince⟩ := ih
    obtain ⟨more, hmore⟩ := hturn.since hsince
    exact ⟨_, hmore⟩

theorem run_since (setting : Setting) (goal : Goal) (agenda : List Site) (walk : Walk) :
    ∃ entered, Since setting.disk walk (run setting goal agenda walk).2 entered := by
  obtain ⟨rest, hturns, -⟩ := run_turns setting goal agenda walk
  exact turns_since hturns

end Turns

/-! ## Both searches -/

theorem length_le_ncard {keys : List Text} {known : Set Text} (hfinite : known.Finite)
    (honce : keys.Nodup) (hknown : ∀ key ∈ keys, key ∈ known) : keys.length ≤ known.ncard := by
  calc keys.length
    _ = keys.toFinset.card := (List.toFinset_card_of_nodup honce).symm
    _ = (keys.toFinset : Set Text).ncard := (Set.ncard_coe_finset _).symm
    _ ≤ known.ncard := Set.ncard_le_ncard (fun key hk => hknown key (by simpa using hk)) hfinite

def others (store : Store) (disk : Disk) (path : Path) : Set Text :=
  {key | key ∈ store.loadableKeys disk ∧ key ≠ path.key disk.home}

theorem since_start {disk : Disk} {walk last : Walk} {path : Path} {entered : List Path}
    (hv : walk.hasEntered disk.home path = false)
    (h : Since disk (walk.enter path) last entered) :
    last.visited = walk.visited ++ path :: entered ∧
      ((path :: entered).map (Path.key disk.home)).Nodup ∧
      (∀ other ∈ path :: entered, walk.hasEntered disk.home other = false) ∧
      entered.length ≤ (others walk.store disk path).ncard := by
  have hentered : ∀ other ∈ entered, ∀ first ∈ walk.visited ++ [path],
      first.key disk.home ≠ other.key disk.home :=
    fun other ho => (hasEntered_false _ _ _).1 (h.fresh other ho)
  have hne : ∀ other ∈ entered, other.key disk.home ≠ path.key disk.home :=
    fun other ho => (hentered other ho path (by simp)).symm
  refine ⟨by simp [h.visited, Walk.enter], ?_, ?_, ?_⟩
  · rw [List.map_cons, List.nodup_cons]
    refine ⟨fun hk => ?_, h.once⟩
    obtain ⟨other, ho, hkey⟩ := List.mem_map.1 hk
    exact hne other ho hkey
  · intro other ho
    rcases List.mem_cons.1 ho with rfl | ho
    · exact hv
    · rw [hasEntered_false]
      exact fun first hf => hentered other ho first (by simp [hf])
  · have hfinite : (others walk.store disk path).Finite :=
      (walk.store.loadableKeys_finite disk).subset fun _ hk => hk.1
    rw [← List.length_map (Path.key disk.home)]
    refine length_le_ncard hfinite h.once fun key hk => ?_
    obtain ⟨other, ho, rfl⟩ := List.mem_map.1 hk
    exact ⟨h.loads other ho, hne other ho⟩

structure Terminates (setting : Setting) (goal : Goal) (doc : Snapshot) (lines : List Nat)
    (shown : Text) (walk : Walk) (result : Except Failure Outcome × Walk) : Prop where
  descends : WellFounded Less ∧ ∀ moment next, Turn setting goal moment next →
    Less (left setting.disk next) (left setting.disk moment)
  /-- Taken without regard to what is left, so many lines give the result. -/
  ends : ∃ n, within setting goal id n (opening setting.disk.home doc lines shown walk).1
    (opening setting.disk.home doc lines shown walk).2 = some result
  arrives : ∃ rest, Relation.ReflTransGen (Turn setting goal)
      (opening setting.disk.home doc lines shown walk) (rest, result.2) ∧
    ∀ next, ¬ Turn setting goal (rest, result.2) next
  grows : ∀ moment next, Turn setting goal moment next →
    moment.2.visited <+: next.2.visited
  /-- Each document is entered once, and no more of them than load, beside the first. -/
  enters : ∃ entered, result.2.visited = walk.visited ++ entered ∧
    (entered.map (Path.key setting.disk.home)).Nodup ∧
    (∀ path ∈ entered, walk.hasEntered setting.disk.home path = false) ∧
    entered.length ≤ 1 + (others walk.store setting.disk doc.path).ncard

theorem start_opening (setting : Setting) (goal : Goal) (doc : Snapshot) (lines : List Nat)
    (shown : Text) (walk : Walk) :
    start setting goal doc lines shown walk =
      run setting goal (opening setting.disk.home doc lines shown walk).1
        (opening setting.disk.home doc lines shown walk).2 := by
  unfold start opening
  split
  · rw [run_nil]
  · rfl

theorem start_terminates (setting : Setting) (goal : Goal) (doc : Snapshot) (lines : List Nat)
    (shown : Text) (walk : Walk) :
    Terminates setting goal doc lines shown walk (start setting goal doc lines shown walk) where
  descends := ⟨less_wellFounded, fun _ _ h => h.less⟩
  ends := by
    rw [start_opening]
    exact within_of_run setting goal _ _
  arrives := by
    rw [start_opening]
    exact run_turns setting goal _ _
  grows := fun _ _ h => h.grows
  enters := by
    unfold start
    split
    · exact ⟨[], by simp⟩
    · rename_i hv
      obtain ⟨entered, hsince⟩ :=
        run_since setting goal (sites doc lines shown) (walk.enter doc.path)
      obtain ⟨hvisited, honce, hfresh, hle⟩ := since_start (eq_false_of_ne_true hv) hsince
      refine ⟨doc.path :: entered, hvisited, honce, hfresh, ?_⟩
      rw [List.length_cons]
      omega

end Search

/-- The search for an instrument and the search for a variable come to an end, whatever
the files hold, whatever is kept, and whatever has been entered before. -/
theorem searches_terminate (setting : Search.Setting) (doc : Snapshot) (walk : Search.Walk) :
    (∀ id top, ∃ result,
      Search.Terminates setting (Instrument.goal id) doc (doc.upward top) doc.stem walk result ∧
        Instrument.find setting doc id top walk =
          (result.1.map (·.candidates.head?), result.2)) ∧
    ∀ token shown direction,
      Search.Terminates setting (Variable.goal token) doc
        (Variable.Direction.lines doc direction) shown walk
        (Variable.candidates setting doc token shown direction walk) := by
  constructor
  · intro id top
    exact ⟨_, Search.start_terminates setting _ doc _ _ walk, rfl⟩
  · intro token shown direction
    exact Search.start_terminates setting _ doc _ _ walk

end MmlLookup
