import MmlLookup.Proofs.InstrumentSearch
import MmlLookup.Proofs.Resolution
import MmlLookup.Proofs.Thinning

/-!
# Pruning cannot be observed

A search for an instrument stops at its first match, and a repeated text is not the
first of its kind. A variable without an exact match is resolved to the first of the
longest candidates, and a repeated candidate is never longer than the one it repeats.
So on a disk without cycles both searches answer as if they entered every document
each time it is included.
-/

set_option autoImplicit false

namespace MmlLookup

namespace Instrument

def NaiveFind (setting : Search.Setting) (doc : Snapshot) (id top : Nat) (store : Store)
    (result : Except Failure (Option Descriptor)) : Prop :=
  ∃ outcome after, Search.Naive setting (goal id) (Search.sites doc (doc.upward top) doc.stem)
    store outcome after ∧ result = outcome.map (·.candidates.head?)

end Instrument

namespace Variable

/-- The resolution of a variable whose passes enter documents again ends with a result. The
pass below is made if the pass above ends without an exact match. -/
def NaiveResolve (setting : Search.Setting) (doc : Snapshot) (token : Token) (shown : Text)
    (store : Store) (result : Except Failure (Option Descriptor)) : Prop :=
  ∃ outcome middle, Search.Naive setting (goal token)
      (Search.sites doc (doc.upward 0) shown) store outcome middle ∧
    match outcome with
    | .error failure => result = .error failure
    | .ok above =>
      if above.shortCircuited then result = .ok above.candidates.getLast?
      else ∃ outcome last, Search.Naive setting (goal token)
          (Search.sites doc doc.downward shown) middle outcome last ∧
        result = outcome.map (settle above)

section Longest

variable {goal : Search.Goal} {past : Text → Prop} {best : Option Descriptor}

/-- No near match in these texts is longer than the best so far. -/
def Outdone (goal : Search.Goal) (past : Text → Prop) (best : Option Descriptor) : Prop :=
  ∀ text, past text → ∀ definition, goal.sign text = .near definition →
    ∃ found, best = some found ∧ definition.length ≤ found.definition.length

theorem Outdone.far (h : Outdone goal past best) (line : Text)
    (hl : ∀ definition, goal.sign line ≠ .near definition) :
    Outdone goal (fun text => past text ∨ text = line) best := by
  intro text ht definition hd
  rcases ht with ht | rfl
  · exact h text ht definition hd
  · exact absurd hd (hl definition)

theorem Outdone.near (h : Outdone goal past best) (site : Search.Site) (definition : Text)
    (hs : goal.sign site.text = .near definition) :
    Outdone goal (fun text => past text ∨ text = site.text)
      (some (better best (site.descriptor definition false))) := by
  intro text ht other hd
  refine ⟨_, rfl, ?_⟩
  rcases ht with ht | rfl
  · obtain ⟨found, rfl, hle⟩ := h text ht other hd
    exact Nat.le_trans hle (better_best_length found _)
  · obtain rfl : definition = other := by simpa [hs] using hd
    exact better_length best (site.descriptor definition false)

/-- The longest candidate is not left out: what is left out is no longer than some
candidate that came before. -/
theorem longest_thins {full kept : List Search.Site} (h : Search.Thins past full kept)
    (hp : Outdone goal past best) :
    longest (best.toList ++ full.filterMap (Search.near? goal)) =
      longest (best.toList ++ kept.filterMap (Search.near? goal)) := by
  induction h generalizing best with
  | done past => rfl
  | keep past site full kept _ ih =>
    simp only [List.filterMap_cons, Search.near?]
    cases hs : goal.sign site.text with
    | near definition =>
      dsimp only
      rw [longest_better, longest_better]
      exact ih (hp.near site definition hs)
    | _ => exact ih (hp.far site.text (by simp [hs]))
  | drop past site full kept hpast _ ih =>
    rw [← ih hp]
    simp only [List.filterMap_cons, Search.near?]
    cases hs : goal.sign site.text with
    | near definition =>
      -- the candidate left out does not take the place of the one it repeats
      obtain ⟨found, rfl, hle⟩ := hp site.text hpast definition hs
      have hkept : better (some found) (site.descriptor definition false) = found :=
        if_neg (Nat.not_lt.2 hle)
      dsimp only
      rw [longest_better, hkept]
      rfl
    | _ => rfl

end Longest

theorem verdict_thins (token : Token) (full kept : List Search.Site)
    (h : Search.Thins (fun _ => False) full kept) : verdict token full = verdict token kept := by
  have hfirst := Search.Thins.first (goal token) h fun _ hf => hf.elim
  have hnone : Outdone (goal token) (fun _ => False) none := fun _ hf => hf.elim
  have hlongest := longest_thins h hnone
  simp only [Option.toList_none, List.nil_append] at hlongest
  rw [verdict, verdict, hfirst, hlongest]

end Variable

section Unobserved

variable {disk : Disk} {environment : Path} {store : Store} {doc : Snapshot}
  (hm : store.Mirrors disk) (ha : disk.Agrees store.active) (hs : disk.Separates store.active)
  (hc : Search.Acyclic disk store.active environment doc)
include hm ha hs hc

theorem sweep_thins (goal : Search.Goal) (numbers : List Nat) (shown : Text)
    (lines : List Search.Site) (last : Search.Walk)
    (h : Search.Sweep disk environment goal (Search.sites doc numbers shown)
      ⟨store, [doc.path]⟩ lines last) :
    ∃ full, Search.Unpruned disk store.active environment goal
        (Search.sites doc numbers shown) full ∧
      Search.Thins (fun _ => False) full lines := by
  obtain ⟨full, hfull⟩ := Search.unpruned_exists goal hc doc .refl numbers shown
  have hu : ∀ site ∈ Search.sites doc numbers shown, ∀ target,
      Search.Below disk store.active environment goal site target →
        Relation.TransGen (Search.Leads disk store.active environment) doc target :=
    fun site hsite target => Search.below_leads numbers shown hsite
  refine ⟨full, hfull, h.thins ⟨hm, rfl⟩ ha hs hc hu ?_ hfull⟩
  -- only the document itself has been entered, and nothing leads back to it
  rw [← List.append_nil (Search.sites doc numbers shown)]
  refine Search.settled_append (fun site hsite target hbelow hentered => ?_) trivial
  obtain ⟨entered, he, hk⟩ := (Search.hasEntered_iff _ _ _).1 hentered
  obtain rfl : entered = doc.path := by simpa using he
  have hne := hc doc target .refl (hu site hsite target hbelow)
  exact absurd hk.symm ((Path.sameDocument_false _ _ _).1 hne)

theorem naiveFind_iff (id top : Nat) (result : Except Failure (Option Descriptor)) :
    Instrument.NaiveFind ⟨disk, some environment⟩ doc id top store result ↔
      result = (Instrument.find ⟨disk, some environment⟩ doc id top ⟨store, []⟩).1 := by
  obtain ⟨lines, last, hsweep⟩ := Search.sweep_exists disk environment (Instrument.goal id)
    (Search.sites doc (doc.upward top) doc.stem) ⟨store, [doc.path]⟩
  obtain ⟨full, hfull, hthins⟩ := sweep_thins hm ha hs hc _ _ _ lines last hsweep
  obtain ⟨after, hnaive, -⟩ :=
    Search.naive_of_unpruned (Instrument.goal_quiet id) ha hs hfull hm rfl
  have hanswer : (Instrument.find ⟨disk, some environment⟩ doc id top ⟨store, []⟩).1 =
      .ok (Search.answer (Instrument.goal id) full).candidates.head? := by
    rw [(Instrument.find_of_sweep hsweep).1, Instrument.answer_head,
      Search.Thins.first (Instrument.goal id) hthins fun _ hf => hf.elim]
  rw [hanswer]
  constructor
  · rintro ⟨outcome, _, hother, rfl⟩
    obtain ⟨rfl, -⟩ := hother.unique hnaive
    rfl
  · rintro rfl
    exact ⟨_, after, hnaive, rfl⟩

theorem naiveResolve_iff (token : Token) (shown : Text)
    (result : Except Failure (Option Descriptor)) :
    Variable.NaiveResolve ⟨disk, some environment⟩ doc token shown store result ↔
      result = (Variable.resolve ⟨disk, some environment⟩ doc token shown store).1 := by
  -- the second pass starts over the store that a first pass without an exact match leaves
  obtain ⟨above, middle, habove⟩ := Search.sweep_exists disk environment (Variable.goal token)
    (Search.sites doc (doc.upward 0) shown) ⟨store, [doc.path]⟩
  obtain ⟨below, last, hbelow⟩ := Search.sweep_exists disk environment (Variable.goal token)
    (Search.sites doc doc.downward shown) ⟨middle.store, [doc.path]⟩
  obtain ⟨hmiddle, hactive⟩ : middle.Fits disk store.active := habove.fits ⟨hm, rfl⟩
  obtain ⟨full, hfull, hthins⟩ := sweep_thins hm ha hs hc _ _ _ above middle habove
  obtain ⟨full', hfull', hthins'⟩ := sweep_thins hmiddle (hactive ▸ ha) (hactive ▸ hs)
    (hactive ▸ hc) _ _ _ below last hbelow
  obtain ⟨after, hnaive, hkept, hsame⟩ :=
    Search.naive_of_unpruned (Variable.goal_quiet token) ha hs hfull hm rfl
  obtain ⟨after', hnaive', -⟩ :=
    Search.naive_of_unpruned (Variable.goal_quiet token) ha hs (hactive ▸ hfull') hkept hsame
  have hanswer : (Variable.resolve ⟨disk, some environment⟩ doc token shown store).1 =
      .ok (Variable.settle (Search.answer (Variable.goal token) full)
        (Search.answer (Variable.goal token) full')) := by
    rw [Variable.resolve_of_sweeps habove hbelow, Variable.settle_answers,
      Variable.verdict_thins token _ _ (hthins.append hthins')]
  rw [hanswer]
  constructor
  · rintro ⟨outcome, _, hother, hresult⟩
    obtain ⟨rfl, rfl⟩ := hother.unique hnaive
    dsimp only at hresult
    split at hresult
    · rename_i hcut
      rw [hresult, Variable.settle, if_pos hcut]
    · obtain ⟨outcome, _, hother', rfl⟩ := hresult
      obtain ⟨rfl, -⟩ := hother'.unique hnaive'
      rfl
  · rintro rfl
    refine ⟨_, after, hnaive, ?_⟩
    dsimp only
    split
    · rename_i hcut
      rw [Variable.settle, if_pos hcut]
    · exact ⟨_, after', hnaive', rfl⟩

end Unobserved

/-- Neither search can tell whether documents are entered once or every time: the searches
that enter them every time end, with these results and no others. -/
theorem pruning_unobserved (disk : Disk) (environment : Path) (store : Store) (doc : Snapshot)
    (hm : store.Mirrors disk) (ha : disk.Agrees store.active) (hs : disk.Separates store.active)
    (hc : Search.Acyclic disk store.active environment doc) :
    (∀ id top result, Instrument.NaiveFind ⟨disk, some environment⟩ doc id top store result ↔
      result = (Instrument.find ⟨disk, some environment⟩ doc id top ⟨store, []⟩).1) ∧
    ∀ token shown result,
      Variable.NaiveResolve ⟨disk, some environment⟩ doc token shown store result ↔
        result = (Variable.resolve ⟨disk, some environment⟩ doc token shown store).1 :=
  ⟨naiveFind_iff hm ha hs hc, naiveResolve_iff hm ha hs hc⟩

def diamond : Disk := .holding
  [("env/left.mml", "#Include base.mml\n!le one".toUTF8, 1),
    ("env/right.mml", "#Include base.mml\n#Include ./Base.mml\n@2 kick".toUTF8, 1),
    ("env/base.mml", "@1 lead\n!lea two".toUTF8, 2),
    ("env/Base.mml", "@1 lead\n!lea two".toUTF8, 3)]

def includesBoth : Snapshot :=
  .make "song.mml".toList
    ["#Include left.mml".toList, "#Include right.mml".toList, "#Include left.mml".toList] none

/-- The instrument is found in the third document, and the lines that resemble the name are
met more than once. -/
theorem pruning_unobserved_diamond :
    diamond.Agrees none ∧ diamond.Separates none ∧
      Search.Acyclic diamond none "env".toList includesBoth ∧
      (∀ result, Instrument.NaiveFind ⟨diamond, some "env".toList⟩ includesBoth 1 0 ⟨none, []⟩
          result ↔
        result = (Instrument.find ⟨diamond, some "env".toList⟩ includesBoth 1 0
          ⟨⟨none, []⟩, []⟩).1) ∧
      ∀ result, Variable.NaiveResolve ⟨diamond, some "env".toList⟩ includesBoth
          (.named "lead".toList) "song".toList ⟨none, []⟩ result ↔
        result = (Variable.resolve ⟨diamond, some "env".toList⟩ includesBoth
          (.named "lead".toList) "song".toList ⟨none, []⟩).1 := by
  have ha : diamond.Agrees none := Disk.agrees_of_everyClash diamond none (by decide +kernel)
  have hs : diamond.Separates none :=
    Disk.separates_of_everyClash diamond none (by decide +kernel)
  have hc : Search.Acyclic diamond none "env".toList includesBoth :=
    Search.acyclic_of_descends
      (Search.rankIn diamond ["env/base.mml", "env/left.mml", "env/right.mml", "song.mml"])
      (by decide +kernel) (by decide +kernel)
  obtain ⟨hfind, hresolve⟩ := pruning_unobserved diamond "env".toList ⟨none, []⟩ includesBoth
    (Store.keeps_nil none _) ha hs hc
  exact ⟨ha, hs, hc, hfind 1 0, hresolve (.named "lead".toList) "song".toList⟩

/-! ## Files that cannot be read -/

/-- Two pairs of files that share a key and a modification time, where the second of
each pair is not valid UTF-8. -/
def pairs : Disk := .holding
  [("env/a.MML", "#Include c.mml".toUTF8, 5), ("env/A.MML", ⟨#[255]⟩, 5),
    ("env/b.MML", "#Include d.mml".toUTF8, 6), ("env/B.MML", ⟨#[255]⟩, 6),
    ("env/c.mml", "@1 lead".toUTF8, 7), ("env/d.mml", "@1 bass".toUTF8, 7),
    ("env/x.mml", "#Include B.MML".toUTF8, 7)]

def includesPairs : Snapshot :=
  .make "song.mml".toList
    ["#Include A.MML".toList, "#Include x.mml".toList, "#FFFile a.FF".toList,
      "#FFFile b.FF".toList, "#Include x.mml".toList] none

theorem find_pairs :
    (Instrument.find ⟨pairs, some "env".toList⟩ includesPairs 1 0 ⟨⟨none, []⟩, []⟩).1 =
      .ok (some ⟨"lead".toList, ['c'], ⟨"env/c.mml".toList, 0⟩, true⟩) := by
  obtain ⟨last, hwithin⟩ := Search.outcomeWithin_some ⟨pairs, some "env".toList⟩
    (Instrument.goal 1) id 16
    (Search.sites includesPairs (includesPairs.upward 0) includesPairs.stem)
    ⟨⟨none, []⟩, [includesPairs.path]⟩
    (.exactly ⟨"lead".toList, ['c'], ⟨"env/c.mml".toList, 0⟩, true⟩) (by decide +kernel)
  rw [Search.find_of_within hwithin]
  rfl

theorem naiveFind_pairs :
    Instrument.NaiveFind ⟨pairs, some "env".toList⟩ includesPairs 1 0 ⟨none, []⟩
      (.ok (some ⟨"bass".toList, ['d'], ⟨"env/d.mml".toList, 0⟩, true⟩)) := by
  obtain ⟨last, hwithin⟩ := Search.outcomeWithin_some ⟨pairs, some "env".toList⟩
    (Instrument.goal 1) (fun walk => ⟨walk.store, []⟩) 16
    (Search.sites includesPairs (includesPairs.upward 0) includesPairs.stem) ⟨⟨none, []⟩, []⟩
    (.exactly ⟨"bass".toList, ['d'], ⟨"env/d.mml".toList, 0⟩, true⟩) (by decide +kernel)
  exact ⟨_, _, Search.naive_of_within _ _ _ _ _ _ hwithin, rfl⟩

/-- By the time a document is included again, the cache may serve lines for a file that
could not be read the first time. Then entering it again tells. -/
theorem pairs_observe_pruning :
    pairs.Agrees none ∧ Search.Acyclic pairs none "env".toList includesPairs ∧
      ¬ ∀ result, Instrument.NaiveFind ⟨pairs, some "env".toList⟩ includesPairs 1 0 ⟨none, []⟩
          result ↔
        result = (Instrument.find ⟨pairs, some "env".toList⟩ includesPairs 1 0
          ⟨⟨none, []⟩, []⟩).1 := by
  refine ⟨Disk.agrees_of_everyClash pairs none (by decide +kernel),
    Search.acyclic_of_descends (Search.rankIn pairs
      ["env/c.mml", "env/d.mml", "env/a.MML", "env/b.MML", "env/x.mml", "song.mml"])
      (by decide +kernel) (by decide +kernel), fun hall => ?_⟩
  have hsame := (hall _).1 naiveFind_pairs
  rw [find_pairs] at hsame
  simp at hsame

end MmlLookup
