import MmlLookup.Proofs.Asking
import MmlLookup.Proofs.Termination

/-!
# Questions and what they load

A question is asked from a cursor, by name, or of a snapshot that is held. Unless it is
of a snapshot, it loads its own document first. A search then takes lines turn by turn,
and loads what the directives on its silent lines name. A line it never takes sends it
nowhere, so how far a question reads depends on where its searches end.
-/

set_option autoImplicit false

namespace MmlLookup

namespace Search

def Takes (setting : Setting) (goal : Goal) (moment : Moment) (site : Site) (walk : Walk) : Prop :=
  ∃ rest, Relation.ReflTransGen (Turn setting goal) moment (site :: rest, walk)

def taken (setting : Setting) (goal : Goal) : Nat → List Site → Walk → Option (List Site)
  | _, [], _ => some []
  | 0, _ :: _, _ => none
  | n + 1, site :: rest, walk =>
    match goal.sign site.text with
    | .hit _ => some [site]
    | .near _ | .other => (taken setting goal n rest walk).map (site :: ·)
    | .silent =>
      match follow setting goal site walk with
      | .error _ => some [site]
      | .ok (ahead, after) => (taken setting goal n (ahead ++ rest) after).map (site :: ·)

def sends (setting : Setting) (goal : Goal) (site : Site) : Option Path :=
  match goal.sign site.text, setting.environment with
  | .silent, some environment => (directiveOf goal site).map (·.target environment)
  | _, _ => none

/-- The search loads the document at a path, or finds that it cannot. -/
def Loads (setting : Setting) (goal : Goal) (moment : Moment) (path : Path) : Prop :=
  ∃ site walk, Takes setting goal moment site walk ∧ sends setting goal site = some path

section Taking

variable {setting : Setting} {goal : Goal} {site other : Site} {rest : List Site}
  {walk here : Walk} {moment next : Moment} {path : Path}

theorem takes_first : Takes setting goal (site :: rest, walk) site walk := ⟨rest, .refl⟩

theorem Turn.takes (h : Turn setting goal moment next) (ht : Takes setting goal next other here) :
    Takes setting goal moment other here := by
  obtain ⟨rest, hturns⟩ := ht
  exact ⟨rest, .head h hturns⟩

theorem takes_cases (h : Takes setting goal (site :: rest, walk) other here) :
    other = site ∨ ∃ next, Turn setting goal (site :: rest, walk) next ∧
      Takes setting goal next other here := by
  obtain ⟨tail, hturns⟩ := h
  rcases Relation.ReflTransGen.cases_head hturns with heq | ⟨next, hturn, hturns⟩
  · cases heq
    exact .inl rfl
  · exact .inr ⟨next, hturn, tail, hturns⟩

theorem not_takes_nil : ¬ Takes setting goal ([], walk) other here := by
  rintro ⟨tail, hturns⟩
  rcases Relation.ReflTransGen.cases_head hturns with heq | ⟨next, hturn, -⟩
  · cases heq
  · cases hturn

theorem head_mem_taken {n : Nat} {sites : List Site}
    (h : taken setting goal n (site :: rest) walk = some sites) : site ∈ sites := by
  cases n with
  | zero => cases h
  | succ n =>
    rw [taken] at h
    split at h
    · cases h
      exact List.mem_singleton_self _
    · obtain ⟨later, -, rfl⟩ := Option.map_eq_some_iff.1 h
      exact List.mem_cons_self
    · obtain ⟨later, -, rfl⟩ := Option.map_eq_some_iff.1 h
      exact List.mem_cons_self
    · split at h
      · cases h
        exact List.mem_singleton_self _
      · obtain ⟨later, -, rfl⟩ := Option.map_eq_some_iff.1 h
        exact List.mem_cons_self

theorem mem_taken (n : Nat) (agenda sites : List Site) (walk : Walk)
    (h : taken setting goal n agenda walk = some sites)
    (ht : Takes setting goal (agenda, walk) other here) : other ∈ sites := by
  induction n generalizing agenda sites walk with
  | zero =>
    cases agenda with
    | nil => exact absurd ht not_takes_nil
    | cons site rest => cases h
  | succ n ih =>
    cases agenda with
    | nil => exact absurd ht not_takes_nil
    | cons site rest =>
      rcases takes_cases ht with rfl | ⟨next, hturn, ht⟩
      · exact head_mem_taken h
      · rw [taken] at h
        cases hturn with
        | near _ _ _ definition hs =>
          simp only [hs] at h
          obtain ⟨later, hlater, rfl⟩ := Option.map_eq_some_iff.1 h
          exact List.mem_cons_of_mem _ (ih _ _ _ hlater ht)
        | other _ _ _ hs =>
          simp only [hs] at h
          obtain ⟨later, hlater, rfl⟩ := Option.map_eq_some_iff.1 h
          exact List.mem_cons_of_mem _ (ih _ _ _ hlater ht)
        | silent _ _ ahead _ after hs hf =>
          simp only [hs, hf] at h
          obtain ⟨later, hlater, rfl⟩ := Option.map_eq_some_iff.1 h
          exact List.mem_cons_of_mem _ (ih _ _ _ hlater ht)

theorem sends_target {environment : Path} {directive : Directive}
    (hs : goal.sign site.text = .silent) (hd : directiveOf goal site = some directive)
    (he : setting.environment = some environment) :
    sends setting goal site = some (directive.target environment) := by
  simp [sends, hs, hd, he]

theorem sends_some (h : sends setting goal site = some path) :
    ∃ environment directive, setting.environment = some environment ∧
      directiveOf goal site = some directive ∧ directive.target environment = path := by
  unfold sends at h
  split at h
  · rename_i environment _ he
    obtain ⟨directive, hd, htarget⟩ := Option.map_eq_some_iff.1 h
    exact ⟨environment, directive, he, hd, htarget⟩
  · cases h

theorem mem_sent {n : Nat} {agenda sites : List Site}
    (h : taken setting goal n agenda walk = some sites)
    (hl : Loads setting goal (agenda, walk) path) :
    path ∈ sites.filterMap (sends setting goal) := by
  obtain ⟨site, here, ht, hs⟩ := hl
  exact List.mem_filterMap.2 ⟨site, mem_taken n agenda sites walk h ht, hs⟩

end Taking

end Search

open Search (Setting Walk)

def Instrument.Loads (setting : Setting) (doc : Snapshot) (id top : Nat) (walk : Walk) :
    Path → Prop :=
  Search.Loads setting (goal id)
    (Search.opening setting.disk.home doc (doc.upward top) doc.stem walk)

namespace Variable

def PassLoads (setting : Setting) (doc : Snapshot) (token : Token) (shown : Text)
    (direction : Direction) (walk : Walk) : Path → Prop :=
  Search.Loads setting (goal token)
    (Search.opening setting.disk.home doc (direction.lines doc) shown walk)

def Loads (setting : Setting) (doc : Snapshot) (token : Token) (shown : Text) (store : Store)
    (path : Path) : Prop :=
  PassLoads setting doc token shown (.backward 0) ⟨store, []⟩ path ∨
    ∃ above walk, candidates setting doc token shown (.backward 0) ⟨store, []⟩ =
        (.ok above, walk) ∧ above.shortCircuited = false ∧
      PassLoads setting doc token shown .forward ⟨walk.store, []⟩ path

end Variable

namespace Lookup

def SeekLoads (setting : Setting) (doc : Snapshot) (store : Store) : Reference → Path → Prop
  | .instrument id => Instrument.Loads setting (doc.withAnchor doc.last) id 0 ⟨store, []⟩
  | .token token => Variable.Loads setting doc token currentDocument store

def HoverSeeks (column : Nat) (text : Text) (reference : Reference) : Prop :=
  referenceAt text column = .ok (some reference) ∧ tabled text reference = none

def JumpSeeks (column : Nat) (text : Text) (reference : Reference) : Prop :=
  Table.ofLine text = none ∧ Directive.parse text = none ∧
    referenceAt text column = .ok (some reference)

/-- What a question from a cursor loads, by the reference it seeks on the cursor's line. -/
def CursorLoads (setting : Setting) (store : Store) (path : Path) (line : Nat)
    (seeks : Text → Reference → Prop) (other : Path) : Prop :=
  other = path ∨ ∃ doc after text reference,
    store.load setting.disk path (some line) = .ok (doc, after) ∧ doc.lines[line]? = some text ∧
      seeks text reference ∧ SeekLoads setting doc after reference other

end Lookup

inductive Query where
  | hover (path : Path) (line column : Nat)
  | definition (path : Path) (line column : Nat)
  | instrument (path : Path) (anchor id : Nat)
  | variable (path : Path) (anchor : Nat) (token : Token)
  | find (doc : Snapshot) (id top : Nat) (visited : List Path)
  | candidates (doc : Snapshot) (token : Token) (shown : Text) (direction : Variable.Direction)
      (visited : List Path)
  | resolve (doc : Snapshot) (token : Token) (shown : Text)

namespace Query

/-- The answer to a question. A search of a snapshot also tells what it has entered. -/
inductive Answer where
  | hover (shown : Except Failure (Option Hover))
  | location (place : Except Failure (Option Location))
  | descriptor (sought : Except Failure (Option Descriptor))
  | found (sought : Except Failure (Option Descriptor)) (visited : List Path)
  | candidates (outcome : Except Failure Search.Outcome) (visited : List Path)

def ask (setting : Setting) (store : Store) : Query → Answer × Store
  | .hover path line column =>
    Prod.map .hover id (Lookup.hover setting store path line column)
  | .definition path line column =>
    Prod.map .location id (Lookup.definition setting store path line column)
  | .instrument path anchor number =>
    Prod.map .descriptor id (Lookup.instrumentAbove setting store path anchor number)
  | .variable path anchor token =>
    Prod.map .descriptor id (Lookup.variableAround setting store path anchor token)
  | .find doc number top visited =>
    let result := Instrument.find setting doc number top ⟨store, visited⟩
    (.found result.1 result.2.visited, result.2.store)
  | .candidates doc token shown direction visited =>
    let result := Variable.candidates setting doc token shown direction ⟨store, visited⟩
    (.candidates result.1 result.2.visited, result.2.store)
  | .resolve doc token shown =>
    Prod.map .descriptor id (Variable.resolve setting doc token shown store)

def Loads (setting : Setting) (store : Store) : Query → Path → Prop
  | .hover path line column, other =>
    Lookup.CursorLoads setting store path line (Lookup.HoverSeeks column) other
  | .definition path line column, other =>
    Lookup.CursorLoads setting store path line (Lookup.JumpSeeks column) other
  | .instrument path anchor number, other =>
    other = path ∨ ∃ doc after, store.load setting.disk path (some anchor) = .ok (doc, after) ∧
      Instrument.Loads setting doc number 0 ⟨after, []⟩ other
  | .variable path anchor token, other =>
    other = path ∨ ∃ doc after, store.load setting.disk path (some anchor) = .ok (doc, after) ∧
      Variable.Loads setting doc token Lookup.currentDocument after other
  | .find doc number top visited, other =>
    Instrument.Loads setting doc number top ⟨store, visited⟩ other
  | .candidates doc token shown direction visited, other =>
    Variable.PassLoads setting doc token shown direction ⟨store, visited⟩ other
  | .resolve doc token shown, other => Variable.Loads setting doc token shown store other

end Query

end MmlLookup
