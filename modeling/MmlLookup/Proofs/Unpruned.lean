import Mathlib.Logic.Relation
import MmlLookup.Proofs.Agreement
import MmlLookup.Proofs.Reached

/-!
# A search that forgets what it has entered

Without the documents entered, a search goes down into an included document every time
it is included. It need not end, so it is told by the ways in which it does. If no
document within reach of the start includes itself, by any detour, then each inclusion
leads to fewer documents below, and the search ends. Which lines it comes to is then a
property of the disk: every inclusion line is followed by all lines its target leads to.
-/

set_option autoImplicit false

namespace MmlLookup.Search

/-- Working down the agenda, entering a document every time it is included, ends with an
outcome and a store. -/
inductive Naive (setting : Setting) (goal : Goal) :
    List Site → Store → Except Failure Outcome → Store → Prop
  | done (store : Store) : Naive setting goal [] store (.ok .nothing) store
  | hit (site : Site) (rest : List Site) (store : Store) (definition : Text) :
      goal.sign site.text = .hit definition →
      Naive setting goal (site :: rest) store
        (.ok (.exactly (site.descriptor definition true))) store
  | near (site : Site) (rest : List Site) (store after : Store) (definition : Text)
      (outcome : Except Failure Outcome) :
      goal.sign site.text = .near definition → Naive setting goal rest store outcome after →
      Naive setting goal (site :: rest) store
        (outcome.map (.following (site.descriptor definition false))) after
  | other (site : Site) (rest : List Site) (store after : Store)
      (outcome : Except Failure Outcome) :
      goal.sign site.text = .other → Naive setting goal rest store outcome after →
      Naive setting goal (site :: rest) store outcome after
  | failed (site : Site) (rest : List Site) (store : Store) (failure : Failure) :
      goal.sign site.text = .silent →
      follow setting goal site ⟨store, []⟩ = .error failure →
      Naive setting goal (site :: rest) store (.error failure) store
  | followed (site : Site) (rest ahead : List Site) (store after : Store) (walk : Walk)
      (outcome : Except Failure Outcome) :
      goal.sign site.text = .silent →
      follow setting goal site ⟨store, []⟩ = .ok (ahead, walk) →
      Naive setting goal (ahead ++ rest) walk.store outcome after →
      Naive setting goal (site :: rest) store outcome after

theorem Naive.unique {setting : Setting} {goal : Goal} {agenda : List Site}
    {store after last : Store} {outcome result : Except Failure Outcome}
    (h : Naive setting goal agenda store outcome after)
    (hr : Naive setting goal agenda store result last) : outcome = result ∧ after = last := by
  induction h generalizing result last with
  | done store =>
    cases hr
    exact ⟨rfl, rfl⟩
  | hit site rest store definition hs => cases hr <;> simp_all
  | near site rest store after definition outcome hs _ ih =>
    cases hr with
    | near _ _ _ _ other _ hs' hr =>
      obtain ⟨rfl, rfl⟩ := ih hr
      obtain rfl : definition = other := by simpa [hs] using hs'
      exact ⟨rfl, rfl⟩
    | _ => simp_all
  | other site rest store after outcome hs _ ih =>
    cases hr with
    | other _ _ _ _ _ _ hr => exact ih hr
    | _ => simp_all
  | failed site rest store failure hs hf => cases hr <;> simp_all
  | followed site rest ahead store after walk outcome hs hf _ ih =>
    cases hr with
    | followed _ _ _ _ _ _ _ _ hf' hr =>
      rw [hf] at hf'
      cases hf'
      exact ih hr
    | _ => simp_all

def lead (disk : Disk) (active : Option Buffer) (environment : Path) (goal : Goal)
    (site : Site) : Option (Directive × Snapshot) :=
  (directiveOf goal site).bind fun directive =>
    (disk.opened active (directive.target environment)).map fun doc => (directive, doc)

def ahead (disk : Disk) (active : Option Buffer) (environment : Path) (goal : Goal)
    (site : Site) : List Site :=
  match lead disk active environment goal site with
  | none => []
  | some (.bank name, doc) => bankSites doc name
  | some (.inclusion name, doc) => sites doc (doc.upward 0) (goal.shown name doc.path)

inductive Unpruned (disk : Disk) (active : Option Buffer) (environment : Path) (goal : Goal) :
    List Site → List Site → Prop
  | done : Unpruned disk active environment goal [] []
  | step (site : Site) (rest lines : List Site) :
      Unpruned disk active environment goal
        (Search.ahead disk active environment goal site ++ rest) lines →
      Unpruned disk active environment goal (site :: rest) (site :: lines)

def Leads (disk : Disk) (active : Option Buffer) (environment : Path) (a b : Snapshot) : Prop :=
  ∃ text ∈ a.lines, ∃ name, named disk active environment text = some (.inclusion name, b)

/-- No document within reach includes itself, by any detour and under any of its paths. -/
def Acyclic (disk : Disk) (active : Option Buffer) (environment : Path) (doc : Snapshot) : Prop :=
  ∀ a b, Relation.ReflTransGen (Leads disk active environment) doc a →
    Relation.TransGen (Leads disk active environment) a b →
      b.path.sameDocument disk.home a.path = false

section Lines

variable {disk : Disk} {active : Option Buffer} {environment : Path} {goal : Goal}
  {agenda rest lines block : List Site} {site : Site} {store : Store} {doc : Snapshot}

theorem lead_some (directive : Directive) (target : Snapshot) :
    lead disk active environment goal site = some (directive, target) ↔
      directiveOf goal site = some directive ∧
        disk.opened active (directive.target environment) = some target := by
  simp only [lead, Option.bind_eq_some_iff, Option.map_eq_some_iff, Prod.mk.injEq]
  constructor
  · rintro ⟨_, hd, _, ho, rfl, rfl⟩
    exact ⟨hd, ho⟩
  · rintro ⟨hd, ho⟩
    exact ⟨directive, hd, target, ho, rfl, rfl⟩

theorem lead_inclusion (name : Text) (target : Snapshot)
    (h : lead disk active environment goal site = some (.inclusion name, target)) :
    named disk active environment site.text = some (.inclusion name, target) := by
  obtain ⟨hd, ho⟩ := (lead_some _ _).1 h
  have hb := directiveOf_followed goal site _ hd
  exact (named_iff _ _ _ _ _ _).2 ⟨(directiveOf_inclusion goal site name (by simp [hb])).1 hd, ho⟩

theorem ahead_inBank (h : site.inBank = true) :
    Search.ahead disk active environment goal site = [] := by
  simp [Search.ahead, lead, directiveOf_inBank goal site h]

theorem Unpruned.append (h : Unpruned disk active environment goal agenda block)
    (hr : Unpruned disk active environment goal rest lines) :
    Unpruned disk active environment goal (agenda ++ rest) (block ++ lines) := by
  induction h with
  | done => exact hr
  | step site agenda block _ ih =>
    rw [List.append_assoc] at ih
    exact .step site (agenda ++ rest) _ ih

theorem Unpruned.split {first : List Site}
    (h : Unpruned disk active environment goal agenda lines) (ha : agenda = first ++ rest) :
    ∃ block tail, lines = block ++ tail ∧ Unpruned disk active environment goal first block ∧
      Unpruned disk active environment goal rest tail := by
  induction h generalizing first with
  | done =>
    obtain ⟨rfl, rfl⟩ := List.append_eq_nil_iff.1 ha.symm
    exact ⟨[], [], rfl, .done, .done⟩
  | step site agenda lines hahead ih =>
    cases first with
    | nil =>
      obtain rfl : site :: agenda = rest := ha
      exact ⟨[], _, rfl, .done, .step site agenda lines hahead⟩
    | cons head first =>
      obtain ⟨rfl, rfl⟩ := List.cons.inj ha
      obtain ⟨block, tail, rfl, hblock, htail⟩ := ih (List.append_assoc _ _ _).symm
      exact ⟨site :: block, tail, rfl, .step site first block hblock, htail⟩

theorem unpruned_bank (hb : ∀ site ∈ block, site.inBank = true) :
    Unpruned disk active environment goal block block := by
  induction block with
  | nil => exact .done
  | cons site block ih =>
    refine .step site block block ?_
    rw [ahead_inBank (hb site (by simp))]
    exact ih fun other ho => hb other (by simp [ho])

/-! ## The search that forgets comes to these lines -/

/-- A line is followed from any mirroring store as an empty cache has it. -/
theorem follow_ahead (environment : Path) (goal : Goal) (site : Site)
    (hm : store.Mirrors disk) (ha : disk.Agrees store.active)
    (hs : disk.Separates store.active) :
    ∃ after, follow ⟨disk, some environment⟩ goal site ⟨store, []⟩ =
        .ok (Search.ahead disk store.active environment goal site, after) ∧
      after.store.Mirrors disk ∧ after.store.active = store.active := by
  unfold Search.follow Search.ahead lead
  cases hd : directiveOf goal site with
  | none => exact ⟨⟨store, []⟩, rfl, hm, rfl⟩
  | some directive =>
    simp only [Option.bind_some, openTarget]
    cases hl : store.load disk (directive.target environment) none with
    | error failure =>
      cases ho : disk.opened store.active (directive.target environment) with
      | none => exact ⟨⟨store, []⟩, rfl, hm, rfl⟩
      | some doc =>
        obtain ⟨_, hload⟩ := Store.load_of_opened hm ha ho
        rw [hl] at hload
        cases hload
    | ok loaded =>
      obtain ⟨doc, after⟩ := loaded
      obtain ⟨hkept, hactive⟩ := Store.load_mirrors hm hl
      rw [Store.opened_of_load hm ha hs hl]
      cases directive with
      | bank name => exact ⟨⟨after, []⟩, rfl, hkept, hactive⟩
      | inclusion name => exact ⟨⟨after, [doc.path]⟩, rfl, hkept, hactive⟩

theorem ahead_quiet (hq : goal.Quiet) (h : goal.sign site.text ≠ .silent) :
    Search.ahead disk active environment goal site = [] := by
  simp [Search.ahead, lead, hq.directiveOf h]

theorem naive_of_unpruned (hq : goal.Quiet) (ha : disk.Agrees active)
    (hs : disk.Separates active)
    (h : Unpruned disk active environment goal agenda lines) (hm : store.Mirrors disk)
    (hactive : store.active = active) :
    ∃ after, Naive ⟨disk, some environment⟩ goal agenda store (.ok (answer goal lines)) after ∧
      after.Mirrors disk ∧ after.active = active := by
  induction h generalizing store with
  | done => exact ⟨store, .done store, hm, hactive⟩
  | step site rest lines _ ih =>
    have hskip (h : goal.sign site.text ≠ .silent) :
        ∃ after, Naive ⟨disk, some environment⟩ goal rest store
            (.ok (answer goal lines)) after ∧
          after.Mirrors disk ∧ after.active = active := by
      have hnext := ih hm hactive
      rwa [ahead_quiet hq h, List.nil_append] at hnext
    rw [answer]
    cases hsign : goal.sign site.text with
    | hit definition => exact ⟨store, .hit site rest store definition hsign, hm, hactive⟩
    | near definition =>
      obtain ⟨after, hrun, hkept⟩ := hskip (by simp [hsign])
      exact ⟨after, .near site rest store after definition _ hsign hrun, hkept⟩
    | other =>
      obtain ⟨after, hrun, hkept⟩ := hskip (by simp [hsign])
      exact ⟨after, .other site rest store after _ hsign hrun, hkept⟩
    | silent =>
      subst hactive
      obtain ⟨next, hfollow, hkept, hsame⟩ := follow_ahead environment goal site hm ha hs
      obtain ⟨after, hrun, hafter⟩ := ih hkept hsame
      exact ⟨after, .followed site rest _ store after next _ hsign hfollow hrun, hafter⟩

/-! ## Without cycles there are such lines -/

theorem named_leads {text name : Text} {target : Snapshot} (ht : text ∈ doc.lines)
    (hn : named disk active environment text = some (.inclusion name, target)) :
    Leads disk active environment doc target := ⟨text, ht, name, hn⟩

theorem Leads.opened {a b : Snapshot} (h : Leads disk active environment a b) :
    disk.opened active b.path = some b := by
  obtain ⟨_, _, _, hn⟩ := h
  exact named_opened _ _ _ _ _ _ hn

theorem opened_known (path : Path) (target : Snapshot)
    (h : disk.opened active path = some target) :
    path.key disk.home ∈ (Store.mk active []).knownKeys disk := by
  cases hl : (Store.mk active []).load disk path none with
  | error failure => simp [Disk.opened, hl, Except.toOption] at h
  | ok loaded => exact Store.load_known _ _ _ _ _ _ hl

open Classical in
noncomputable def keysBelow (disk : Disk) (active : Option Buffer) (environment : Path)
    (doc : Snapshot) : List Text :=
  ((Store.mk active []).knownKeys disk).filter fun key =>
    ∃ target, Relation.TransGen (Leads disk active environment) doc target ∧
      target.path.key disk.home = key

open Classical in
/-- An included document leads to fewer documents than the one that includes it. -/
theorem keysBelow_lt (hc : Acyclic disk active environment doc) {a b : Snapshot}
    (ha : Relation.ReflTransGen (Leads disk active environment) doc a)
    (hab : Leads disk active environment a b) :
    (keysBelow disk active environment b).length <
      (keysBelow disk active environment a).length := by
  refine filter_length_lt _ _ _ (b.path.key disk.home) ?_ (opened_known _ _ hab.opened) ?_ ?_
  · intro key h
    obtain ⟨target, hbt, hk⟩ := of_decide_eq_true h
    exact decide_eq_true ⟨target, .head hab hbt, hk⟩
  · exact decide_eq_true ⟨b, .single hab, rfl⟩
  · refine decide_eq_false ?_
    rintro ⟨target, hbt, hk⟩
    exact (Path.sameDocument_false _ _ _).1 (hc b target (ha.tail hab) hbt) hk

theorem unpruned_of_targets
    (h : ∀ site ∈ agenda, ∃ block, Unpruned disk active environment goal
      (Search.ahead disk active environment goal site) block) :
    ∃ lines, Unpruned disk active environment goal agenda lines := by
  induction agenda with
  | nil => exact ⟨[], .done⟩
  | cons site rest ih =>
    obtain ⟨block, hblock⟩ := h site (by simp)
    obtain ⟨lines, hlines⟩ := ih fun other ho => h other (by simp [ho])
    exact ⟨_, .step site rest _ (hblock.append hlines)⟩

theorem sites_text (numbers : List Nat) (shown : Text) (h : site ∈ sites doc numbers shown) :
    site.text = [] ∨ site.text ∈ doc.lines := by
  obtain ⟨line, -, rfl⟩ := List.mem_map.1 h
  exact doc.lineAt_cases line

theorem unpruned_exists (goal : Goal) (hc : Acyclic disk active environment doc) (a : Snapshot)
    (ha : Relation.ReflTransGen (Leads disk active environment) doc a) (numbers : List Nat)
    (shown : Text) :
    ∃ lines, Unpruned disk active environment goal (sites a numbers shown) lines := by
  refine unpruned_of_targets fun site hsite => ?_
  unfold Search.ahead
  split
  · exact ⟨[], .done⟩
  · rename_i name bank _
    refine ⟨_, unpruned_bank fun other ho => ?_⟩
    obtain ⟨line, -, rfl⟩ := List.mem_map.1 ho
    rfl
  · rename_i name target hlead
    have hn := lead_inclusion name target hlead
    have hlt : Leads disk active environment a target := by
      rcases sites_text numbers shown hsite with hnil | hmem
      · rw [hnil] at hn
        cases hn
      · exact named_leads hmem hn
    have hlt' := keysBelow_lt hc ha hlt
    exact unpruned_exists goal hc target (ha.tail hlt) _ _
termination_by (keysBelow disk active environment a).length

end Lines

/-! ## Ranks -/

section Ranks

variable {disk : Disk} {environment : Path} {rank : Text → Nat} {doc : Snapshot}

def descending (disk : Disk) (environment : Path) (rank : Text → Nat) (key : Text)
    (lines : List Text) : Bool :=
  lines.all fun line =>
    match Directive.parse line with
    | some (.inclusion name) =>
      rank (((Directive.inclusion name).target environment).key disk.home) < rank key
    | _ => true

def descends (disk : Disk) (environment : Path) (rank : Text → Nat) : Bool :=
  disk.nodes.all fun node =>
    match node.2 with
    | .directory _ => true
    | .file file =>
      match Disk.decode file.bytes with
      | .ok text => descending disk environment rank node.1.key (Text.splitLines text)
      | .error _ => true

def rankIn (disk : Disk) (paths : List String) (key : Text) : Nat :=
  paths.findIdx fun path => Path.key disk.home path.toList == key

theorem leads_descending {a b : Snapshot} (hab : Leads disk none environment a b)
    (h : descending disk environment rank (a.path.key disk.home) a.lines = true) :
    rank (b.path.key disk.home) < rank (a.path.key disk.home) := by
  obtain ⟨text, ht, name, hn⟩ := hab
  obtain ⟨hp, ho⟩ := (named_iff _ _ _ _ _ _).1 hn
  have hline := List.all_eq_true.1 h text ht
  rw [hp] at hline
  rw [opened_at _ _ _ _ ho]
  exact of_decide_eq_true hline

theorem opened_descending (h : descends disk environment rank = true) (path : Path)
    (ho : disk.opened none path = some doc) :
    descending disk environment rank (doc.path.key disk.home) doc.lines = true := by
  rcases Disk.opened_cases disk none path doc ho with ⟨buffer, hb, -⟩ | ⟨-, file, text, hf, hd, hl⟩
  · cases hb
  · obtain ⟨trail, hnode, hk⟩ := Disk.file_node disk path file hf
    have hfile := List.all_eq_true.1 h _ hnode
    simp only [hd] at hfile
    rwa [opened_at _ _ _ _ ho, hl, hk]

theorem acyclic_of_descends (rank : Text → Nat) (h : descends disk environment rank = true)
    (hdoc : descending disk environment rank (doc.path.key disk.home) doc.lines = true) :
    Acyclic disk none environment doc := by
  have hreached (a : Snapshot) (ha : Relation.ReflTransGen (Leads disk none environment) doc a) :
      descending disk environment rank (a.path.key disk.home) a.lines = true := by
    cases ha with
    | refl => exact hdoc
    | tail _ hlast => exact opened_descending h _ hlast.opened
  intro a b ha hab
  have hlower : rank (b.path.key disk.home) < rank (a.path.key disk.home) := by
    induction hab with
    | single hab => exact leads_descending hab (hreached a ha)
    | tail hac hcb ih =>
      exact Nat.lt_trans (leads_descending hcb (hreached _ (ha.trans hac.to_reflTransGen))) ih
  rw [Path.sameDocument_false]
  intro hk
  rw [hk] at hlower
  exact Nat.lt_irrefl _ hlower

end Ranks

end MmlLookup.Search
