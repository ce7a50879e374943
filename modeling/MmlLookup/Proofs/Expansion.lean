import MmlLookup.Proofs.Reached

/-!
# Documents expanded in place

The lines that a search comes to are the lines of its document, where a line that leads
to another document is followed at once by the lines of that document, expanded in the
same way. What has been entered and what has been read is carried along. The sequence
does not depend on what is sought, there is exactly one, and without banks it comes to
no line of a document twice.
-/

set_option autoImplicit false

namespace MmlLookup

namespace Snapshot

def fromEnd (doc : Snapshot) : List Nat := (List.range (doc.last + 1)).reverse

theorem upward_fromEnd (doc : Snapshot) (path : Path) (h : doc = make path doc.lines none) :
    doc.upward 0 = doc.fromEnd := by
  have ha : doc.anchor = doc.last := by
    rw [h]
    rfl
  rw [upward, fromEnd, ha, List.range_eq_range', Nat.sub_zero]

theorem fromEnd_nodup (doc : Snapshot) : doc.fromEnd.Nodup :=
  List.pairwise_reverse.2 (List.nodup_range.imp Ne.symm)

end Snapshot

namespace Search

def Site.spot (home : Trail) (site : Site) : Text × Nat := (site.doc.path.key home, site.line)

/-- How a search goes through documents, whatever it looks for: whether it consults
banks, and the name it shows for an included document. -/
structure Manner where
  banks : Bool
  shown : Text → Path → Text

def Goal.manner (goal : Goal) : Manner := ⟨goal.banks, goal.shown⟩

namespace Manner

def follows (manner : Manner) : Directive → Bool
  | .bank _ => manner.banks
  | .inclusion _ => true

/-- The directive on a line, if it is followed and its target loads, with the document
loaded and the store after it. -/
def opens (manner : Manner) (disk : Disk) (environment : Path) (text : Text) (store : Store) :
    Option (Directive × Snapshot × Store) :=
  ((Directive.parse text).filter manner.follows).bind fun directive =>
    (store.load disk (directive.target environment) none).toOption.map fun loaded =>
      (directive, loaded)

end Manner

/-- Lines of a document, each followed by what it leads to: a bank line by all lines of
the bank, from the first to the last, and an inclusion line by the lines of its target,
from the last to the first and expanded in turn, unless the target has been entered. -/
inductive Expands (disk : Disk) (environment : Path) (manner : Manner) :
    Snapshot → List Nat → Text → Walk → List Site → Walk → Prop
  | done (doc : Snapshot) (shown : Text) (walk : Walk) :
      Expands disk environment manner doc [] shown walk [] walk
  | plain (doc : Snapshot) (line : Nat) (numbers : List Nat) (shown : Text)
      (lines : List Site) (walk last : Walk) :
      manner.opens disk environment (doc.lineAt line) walk.store = none →
      Expands disk environment manner doc numbers shown walk lines last →
      Expands disk environment manner doc (line :: numbers) shown walk
        (⟨doc, line, shown, false⟩ :: lines) last
  | bank (doc bank : Snapshot) (line : Nat) (numbers : List Nat) (shown name : Text)
      (lines : List Site) (store : Store) (walk last : Walk) :
      manner.opens disk environment (doc.lineAt line) walk.store =
        some (.bank name, bank, store) →
      Expands disk environment manner doc numbers shown { walk with store } lines last →
      Expands disk environment manner doc (line :: numbers) shown walk
        (⟨doc, line, shown, false⟩ :: (bankSites bank name ++ lines)) last
  | again (doc target : Snapshot) (line : Nat) (numbers : List Nat) (shown name : Text)
      (lines : List Site) (store : Store) (walk last : Walk) :
      manner.opens disk environment (doc.lineAt line) walk.store =
        some (.inclusion name, target, store) →
      walk.hasEntered disk.home target.path = true →
      Expands disk environment manner doc numbers shown { walk with store } lines last →
      Expands disk environment manner doc (line :: numbers) shown walk
        (⟨doc, line, shown, false⟩ :: lines) last
  | included (doc target : Snapshot) (line : Nat) (numbers : List Nat) (shown name : Text)
      (inner lines : List Site) (store : Store) (walk middle last : Walk) :
      manner.opens disk environment (doc.lineAt line) walk.store =
        some (.inclusion name, target, store) →
      walk.hasEntered disk.home target.path = false →
      Expands disk environment manner target target.fromEnd (manner.shown name target.path)
        ({ walk with store }.enter target.path) inner middle →
      Expands disk environment manner doc numbers shown middle lines last →
      Expands disk environment manner doc (line :: numbers) shown walk
        (⟨doc, line, shown, false⟩ :: (inner ++ lines)) last

section Expansion

variable {disk : Disk} {environment : Path} {manner : Manner} {goal : Goal} {site : Site}
  {doc : Snapshot} {numbers : List Nat} {shown : Text} {walk after middle last : Walk}
  {rest lines block : List Site}

/-! ## There is one expansion -/

theorem Expands.unique (h : Expands disk environment manner doc numbers shown walk lines last)
    (h' : Expands disk environment manner doc numbers shown walk block after) :
    lines = block ∧ last = after := by
  induction h generalizing block after with
  | done =>
    cases h'
    exact ⟨rfl, rfl⟩
  | plain doc line numbers shown lines walk last ho _ ih =>
    cases h' with
    | plain _ _ _ _ _ _ _ _ hrest =>
      obtain ⟨rfl, rfl⟩ := ih hrest
      exact ⟨rfl, rfl⟩
    | _ => simp_all
  | bank doc bank line numbers shown name lines store walk last ho _ ih =>
    cases h' with
    | bank _ _ _ _ _ _ _ _ _ _ ho' hrest =>
      cases ho.symm.trans ho'
      obtain ⟨rfl, rfl⟩ := ih hrest
      exact ⟨rfl, rfl⟩
    | _ => simp_all
  | again doc target line numbers shown name lines store walk last ho hv _ ih =>
    cases h' with
    | again _ _ _ _ _ _ _ _ _ _ ho' _ hrest =>
      cases ho.symm.trans ho'
      obtain ⟨rfl, rfl⟩ := ih hrest
      exact ⟨rfl, rfl⟩
    | _ => simp_all
  | included doc target line numbers shown name inner lines store walk middle last ho hv _ _
      ihinner ih =>
    cases h' with
    | included _ _ _ _ _ _ _ _ _ _ _ _ ho' _ hinner hrest =>
      cases ho.symm.trans ho'
      obtain ⟨rfl, rfl⟩ := ihinner hinner
      obtain ⟨rfl, rfl⟩ := ih hrest
      exact ⟨rfl, rfl⟩
    | _ => simp_all

/-! ## A sweep takes the lines of the expansion -/

theorem directiveOf_manner (goal : Goal) (site : Site) (h : site.inBank = false) :
    directiveOf goal site = (Directive.parse site.text).filter goal.manner.follows := by
  unfold directiveOf
  rw [if_neg (by simp [h])]
  cases Directive.parse site.text with
  | none => rfl
  | some directive =>
    cases directive with
    | bank name => cases hb : goal.banks <;> simp [Goal.manner, Manner.follows, hb, Option.filter]
    | inclusion name => rfl

theorem opens_followed (h : site.inBank = false) (directive : Directive) (target : Snapshot)
    (store : Store) (hd : directiveOf goal site = some directive)
    (hl : walk.store.load disk (directive.target environment) none = .ok (target, store)) :
    goal.manner.opens disk environment site.text walk.store = some (directive, target, store) := by
  rw [Manner.opens, ← directiveOf_manner goal site h, hd]
  simp [hl, Except.toOption]

theorem opens_none (site : Site) (h : site.inBank = false)
    (hn : ∀ directive, directiveOf goal site = some directive → ∃ failure,
      walk.store.load disk (directive.target environment) none = .error failure) :
    goal.manner.opens disk environment site.text walk.store = none := by
  rw [Manner.opens, ← directiveOf_manner goal site h, Option.bind_eq_none_iff]
  intro directive hd
  obtain ⟨failure, hl⟩ := hn directive hd
  simp [hl, Except.toOption]

/-- The lines of a sweep begin with the expansion of the document in front. The induction
is on a bound for the lines, as an inclusion splits the sweep twice. -/
theorem Sweep.expands_within (n : Nat) (hn : lines.length ≤ n)
    (h : Sweep disk environment goal (sites doc numbers shown ++ rest) walk lines last) :
    ∃ block middle tail, lines = block ++ tail ∧
      Expands disk environment goal.manner doc numbers shown walk block middle ∧
      Sweep disk environment goal rest middle tail last := by
  induction n generalizing doc numbers shown rest walk lines with
  | zero =>
    obtain rfl : lines = [] := List.eq_nil_of_length_eq_zero (Nat.le_zero.1 hn)
    cases numbers with
    | nil => exact ⟨[], walk, [], rfl, .done doc shown walk, h⟩
    | cons line numbers => cases h
  | succ n ih =>
    cases numbers with
    | nil => exact ⟨[], walk, lines, rfl, .done doc shown walk, h⟩
    | cons line numbers =>
      cases h with
      | step _ _ scanned ahead lines _ after _ hstep hrest =>
        have hshort : lines.length ≤ n := by
          simp only [List.length_cons, List.length_append] at hn
          omega
        cases hstep with
        | plain hd =>
          obtain ⟨block, middle, tail, rfl, hblock, htail⟩ := ih hshort hrest
          have ho : goal.manner.opens disk environment (doc.lineAt line) walk.store = none :=
            opens_none ⟨doc, line, shown, false⟩ rfl fun directive hd' => by
              cases hd.symm.trans hd'
          exact ⟨_, middle, tail, rfl, .plain _ _ _ _ _ _ _ ho hblock, htail⟩
        | missing directive failure hd hl =>
          obtain ⟨block, middle, tail, rfl, hblock, htail⟩ := ih hshort hrest
          have ho : goal.manner.opens disk environment (doc.lineAt line) walk.store = none :=
            opens_none ⟨doc, line, shown, false⟩ rfl fun directive' hd' => by
              cases hd.symm.trans hd'
              exact ⟨failure, hl⟩
          exact ⟨_, middle, tail, rfl, .plain _ _ _ _ _ _ _ ho hblock, htail⟩
        | bank name bank store hd hl =>
          obtain ⟨block, middle, tail, rfl, hblock, htail⟩ := ih hshort hrest
          refine ⟨_, middle, tail, ?_,
            .bank _ _ _ _ _ _ _ _ _ _ (opens_followed rfl _ _ _ hd hl) hblock, htail⟩
          simp
        | again name target store hd hl hv =>
          obtain ⟨block, middle, tail, rfl, hblock, htail⟩ := ih hshort hrest
          exact ⟨_, middle, tail, rfl,
            .again _ _ _ _ _ _ _ _ _ _ (opens_followed rfl _ _ _ hd hl) hv hblock, htail⟩
        | entered name target store hd hl hv =>
          -- once for the lines of the document, once for those behind the inclusion
          obtain ⟨inner, between, later, rfl, hinner, hlater⟩ := ih hshort hrest
          have hlaterShort : later.length ≤ n := by
            simp only [List.length_append] at hshort
            omega
          obtain ⟨block, middle, tail, rfl, hblock, htail⟩ := ih hlaterShort hlater
          rw [target.upward_fromEnd _ (Store.load_served _ _ _ _ _ _ hl).1] at hinner
          refine ⟨_, middle, tail, ?_, .included _ _ _ _ _ _ _ _ _ _ _ _
            (opens_followed rfl _ _ _ hd hl) hv hinner hblock, htail⟩
          simp

theorem Sweep.expands
    (h : Sweep disk environment goal (sites doc numbers shown) walk lines last) :
    Expands disk environment goal.manner doc numbers shown walk lines last := by
  rw [← List.append_nil (sites doc numbers shown)] at h
  obtain ⟨block, middle, tail, rfl, hblock, htail⟩ := h.expands_within _ (Nat.le_refl _)
  cases htail
  rwa [List.append_nil]

structure Expansion (disk : Disk) (environment : Path) (manner : Manner) (doc : Snapshot)
    (numbers : List Nat) (shown : Text) (walk : Walk) (lines : List Site) (last : Walk) :
    Prop where
  expands : Expands disk environment manner doc numbers shown walk lines last
  only : ∀ block after, Expands disk environment manner doc numbers shown walk block after →
    block = lines ∧ after = last

theorem expansion_exists (disk : Disk) (environment : Path) (goal : Goal) (doc : Snapshot)
    (numbers : List Nat) (shown : Text) (walk : Walk) :
    ∃ lines last, Expansion disk environment goal.manner doc numbers shown walk lines last := by
  obtain ⟨lines, last, h⟩ := sweep_exists disk environment goal (sites doc numbers shown) walk
  exact ⟨lines, last, h.expands, fun _ _ h' => h'.unique h.expands⟩

theorem Expands.sweep (goal : Goal)
    (h : Expands disk environment goal.manner doc numbers shown walk lines last) :
    Sweep disk environment goal (sites doc numbers shown) walk lines last := by
  obtain ⟨_, _, hsweep⟩ := sweep_exists disk environment goal (sites doc numbers shown) walk
  obtain ⟨rfl, rfl⟩ := hsweep.expands.unique h
  exact hsweep

/-! ## No line twice -/

theorem Expands.visited (h : Expands disk environment manner doc numbers shown walk lines last) :
    ∀ path ∈ walk.visited, path ∈ last.visited := by
  induction h with
  | done => exact fun path hp => hp
  | plain _ _ _ _ _ _ _ _ _ ih => exact ih
  | bank _ _ _ _ _ _ _ _ _ _ _ _ ih => exact ih
  | again _ _ _ _ _ _ _ _ _ _ _ _ _ ih => exact ih
  | included _ _ _ _ _ _ _ _ _ _ _ _ _ _ _ _ ihinner ih =>
    exact fun path hp => ih path (ihinner path (List.mem_append_left _ hp))

theorem Expands.stays (h : Expands disk environment manner doc numbers shown walk lines last)
    (home : Trail) (path : Path) (hv : walk.hasEntered home path = true) :
    last.hasEntered home path = true := hasEntered_mono home path h.visited hv

theorem hasEntered_key (walk : Walk) (home : Trail) {p q : Path} (h : p.key home = q.key home) :
    walk.hasEntered home p = walk.hasEntered home q := by
  rw [Bool.eq_iff_iff, hasEntered_iff, hasEntered_iff, h]

theorem hasEntered_enter {home : Trail} {path : Path} (store : Store) (target : Path)
    (h : walk.hasEntered home path = true) :
    ({ walk with store }.enter target).hasEntered home path = true :=
  hasEntered_mono home path (fun _ hp => List.mem_append_left _ hp) h

/-- A line comes from the document that is expanded, or from one entered on the way. -/
def Whence (home : Trail) (doc : Snapshot) (numbers : List Nat) (walk last : Walk)
    (site : Site) : Prop :=
  site.doc.path.key home = doc.path.key home ∧ site.line ∈ numbers ∨
    walk.hasEntered home site.doc.path = false ∧ last.hasEntered home site.doc.path = true

theorem Whence.earlier {home : Trail} {line : Nat} (h : Whence home doc numbers middle last site)
    (hv : ∀ path, walk.hasEntered home path = true → middle.hasEntered home path = true) :
    Whence home doc (line :: numbers) walk last site := by
  rcases h with ⟨hk, hline⟩ | ⟨hfresh, hlast⟩
  · exact .inl ⟨hk, List.mem_cons_of_mem _ hline⟩
  · exact .inr ⟨eq_false_of_ne_true fun hw => by simp [hv _ hw] at hfresh, hlast⟩

theorem Whence.inside {home : Trail} {store : Store} {target : Snapshot}
    (h : Whence home target numbers ({ walk with store }.enter target.path) middle site)
    (ht : walk.hasEntered home target.path = false)
    (hm : middle.hasEntered home target.path = true) :
    walk.hasEntered home site.doc.path = false ∧ middle.hasEntered home site.doc.path = true := by
  rcases h with ⟨hk, -⟩ | ⟨hfresh, hlast⟩
  · rw [hasEntered_key walk home hk, hasEntered_key middle home hk]
    exact ⟨ht, hm⟩
  · refine ⟨eq_false_of_ne_true fun hw => ?_, hlast⟩
    simp [hasEntered_enter store target.path hw] at hfresh

theorem opens_bank {name : Text} {text : Text} {bank : Snapshot} {store after : Store}
    (h : manner.opens disk environment text store = some (.bank name, bank, after)) :
    manner.banks = true := by
  obtain ⟨directive, hd, ho⟩ := Option.bind_eq_some_iff.1 h
  obtain ⟨loaded, -, heq⟩ := Option.map_eq_some_iff.1 ho
  obtain ⟨-, hf⟩ := Option.filter_eq_some_iff.1 hd
  cases heq
  exact hf

theorem Expands.target_entered {target : Snapshot} {name : Text} {store : Store}
    {inner : List Site}
    (h : Expands disk environment manner target numbers name
      ({ walk with store }.enter target.path) inner middle) :
    middle.hasEntered disk.home target.path = true :=
  h.stays _ _ (enter_hasEntered _ _ _)

theorem Expands.whence (hb : manner.banks = false)
    (h : Expands disk environment manner doc numbers shown walk lines last) :
    ∀ site ∈ lines, Whence disk.home doc numbers walk last site := by
  induction h with
  | done => exact fun site hs => absurd hs List.not_mem_nil
  | plain doc line numbers shown lines walk last _ _ ih =>
    intro site hs
    rcases List.mem_cons.1 hs with rfl | hs
    · exact .inl ⟨rfl, List.mem_cons_self⟩
    · exact (ih site hs).earlier fun _ hv => hv
  | bank doc bank line numbers shown name lines store walk last ho =>
    simp [opens_bank ho] at hb
  | again doc target line numbers shown name lines store walk last _ _ _ ih =>
    intro site hs
    rcases List.mem_cons.1 hs with rfl | hs
    · exact .inl ⟨rfl, List.mem_cons_self⟩
    · exact (ih site hs).earlier fun _ hv => hv
  | included doc target line numbers shown name inner lines store walk middle last _ hv hinner
      hrest ihinner ih =>
    intro site hs
    rcases List.mem_cons.1 hs with rfl | hs
    · exact .inl ⟨rfl, List.mem_cons_self⟩
    · rcases List.mem_append.1 hs with hs | hs
      · obtain ⟨hfresh, hentered⟩ := (ihinner site hs).inside hv hinner.target_entered
        exact .inr ⟨hfresh, hrest.stays _ _ hentered⟩
      · exact (ih site hs).earlier fun path hw => hinner.stays _ _ (hasEntered_enter store _ hw)

theorem spot_ne {home : Trail} {entered fresh : Site}
    (he : walk.hasEntered home entered.doc.path = true)
    (hf : walk.hasEntered home fresh.doc.path = false) : entered.spot home ≠ fresh.spot home := by
  intro heq
  rw [hasEntered_key walk home (Prod.mk.inj heq).1, hf] at he
  cases he

theorem Whence.head_ne {home : Trail} {line : Nat} (h : Whence home doc numbers walk last site)
    (hv : walk.hasEntered home doc.path = true) (hl : line ∉ numbers) :
    Site.spot home ⟨doc, line, shown, false⟩ ≠ site.spot home := by
  rcases h with ⟨-, hline⟩ | ⟨hfresh, -⟩
  · intro heq
    have hsame : line = site.line := (Prod.mk.inj heq).2
    exact hl (hsame ▸ hline)
  · exact spot_ne hv hfresh

theorem Whence.inner_ne {home : Trail} {inner : Site}
    (h : Whence home doc numbers middle last site) (hv : walk.hasEntered home doc.path = true)
    (hi : walk.hasEntered home inner.doc.path = false ∧
      middle.hasEntered home inner.doc.path = true) : inner.spot home ≠ site.spot home := by
  rcases h with ⟨hk, -⟩ | ⟨hfresh, -⟩
  · have hsite : walk.hasEntered home site.doc.path = true := by
      rw [hasEntered_key walk home hk, hv]
    exact (spot_ne hsite hi.1).symm
  · exact spot_ne hi.2 hfresh

/-- Without banks the lines are of different documents or of different numbers. The case
split follows the entered documents: a line that comes later is one of this document that
is still to come, or one of a document entered later. -/
theorem Expands.apart (hb : manner.banks = false)
    (h : Expands disk environment manner doc numbers shown walk lines last)
    (hv : walk.hasEntered disk.home doc.path = true) (hn : numbers.Nodup) :
    lines.Pairwise fun a b => a.spot disk.home ≠ b.spot disk.home := by
  induction h with
  | done => exact .nil
  | plain doc line numbers shown lines walk last _ hrest ih =>
    obtain ⟨hl, hn⟩ := List.nodup_cons.1 hn
    exact .cons (fun site hs => (hrest.whence hb site hs).head_ne hv hl) (ih hv hn)
  | bank doc bank line numbers shown name lines store walk last ho =>
    simp [opens_bank ho] at hb
  | again doc target line numbers shown name lines store walk last _ _ hrest ih =>
    obtain ⟨hl, hn⟩ := List.nodup_cons.1 hn
    exact .cons (fun site hs => (hrest.whence hb site hs).head_ne hv hl) (ih hv hn)
  | included doc target line numbers shown name inner lines store walk middle last _ hfresh
      hinner hrest ihinner ih =>
    obtain ⟨hl, hn⟩ := List.nodup_cons.1 hn
    have hmiddle : middle.hasEntered disk.home doc.path = true :=
      hinner.stays _ _ (hasEntered_enter store _ hv)
    have hinside (site : Site) (hs : site ∈ inner) :
        walk.hasEntered disk.home site.doc.path = false ∧
          middle.hasEntered disk.home site.doc.path = true :=
      (hinner.whence hb site hs).inside hfresh hinner.target_entered
    refine .cons (fun site hs => ?_) (List.pairwise_append.2
      ⟨ihinner (enter_hasEntered _ _ _) target.fromEnd_nodup, ih hmiddle hn, ?_⟩)
    · rcases List.mem_append.1 hs with hs | hs
      · exact spot_ne hv (hinside site hs).1
      · exact (hrest.whence hb site hs).head_ne hmiddle hl
    · exact fun first hf site hs => (hrest.whence hb site hs).inner_ne hv (hinside first hf)

end Expansion

end Search

end MmlLookup
