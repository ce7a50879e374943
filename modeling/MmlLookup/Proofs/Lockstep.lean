import MmlLookup.Proofs.Questions

/-!
# Two runs in step

A search is run against two settings, over related stores. If whatever it loads gives
the same lines in both and leaves related stores, or loads in neither, the two runs take
the same lines, end with the same answer and leave related stores. Only the documents
that the first run loads matter, so this compares a store with itself, a cache with
another one, and disks that differ out of sight.
-/

set_option autoImplicit false

namespace MmlLookup

/-- Both fail alike, or both succeed with one value and related states. -/
def Alike {α S : Type} (R : S → S → Prop) (x y : Except Failure (α × S)) : Prop :=
  (∃ value s t, x = .ok (value, s) ∧ y = .ok (value, t) ∧ R s t) ∨
    ∃ failure, x = .error failure ∧ y = .error failure

def Together {α S : Type} (R : S → S → Prop) (x y : α × S) : Prop := x.1 = y.1 ∧ R x.2 y.2

def Search.Walk.Like (R : Store → Store → Prop) (walk other : Search.Walk) : Prop :=
  walk.visited = other.visited ∧ R walk.store other.store

theorem Together.map {α β S : Type} {Q : S → S → Prop} {x y : α × S} (f : α → β)
    (h : Together Q x y) : Together Q (f x.1, x.2) (f y.1, y.2) := ⟨congrArg f h.1, h.2⟩

theorem Search.Walk.Like.hasEntered {R : Store → Store → Prop} {walk other : Search.Walk}
    (h : walk.Like R other) (home : Trail) (path : Path) :
    walk.hasEntered home path = other.hasEntered home path := by
  simp [Search.Walk.hasEntered, h.1]

namespace Search

section Following

variable {setting twin : Setting} {goal : Goal} {W : Walk → Walk → Prop}

/-- Two runs of one agenda stay in step if they follow alike every line that the first
of them takes. -/
theorem run_lockstep (agenda : List Site) (walk other : Walk)
    (hfollow : ∀ site here there, Takes setting goal (agenda, walk) site here →
      goal.sign site.text = .silent → W here there →
        Alike W (follow setting goal site here) (follow twin goal site there))
    (h : W walk other) :
    Together W (run setting goal agenda walk) (run twin goal agenda other) := by
  induction agenda, walk using run.induct setting goal generalizing other with
  | case1 walk =>
    rw [run_nil, run_nil]
    exact ⟨rfl, h⟩
  | case2 walk site rest definition hs =>
    rw [run_cons, run_cons, hs]
    exact ⟨rfl, h⟩
  | case3 walk site rest definition hs _ _ _ ih =>
    rw [run_cons, run_cons, hs]
    have hturn : Turn setting goal (site :: rest, walk) (rest, walk) := .near _ _ _ _ hs
    exact (ih other (fun _ _ _ ht => hfollow _ _ _ (hturn.takes ht)) h).map _
  | case4 walk site rest hs ih =>
    rw [run_cons, run_cons, hs]
    have hturn : Turn setting goal (site :: rest, walk) (rest, walk) := .other _ _ _ hs
    exact ih other (fun _ _ _ ht => hfollow _ _ _ (hturn.takes ht)) h
  | case5 walk site rest hs failure hf =>
    rw [run_cons, run_cons, hs]
    rcases hfollow site walk other takes_first hs h with
      ⟨_, _, _, ha, _, _⟩ | ⟨failure', ha, hb⟩
    · rw [hf] at ha
      cases ha
    · simp only [ha, hb]
      exact ⟨rfl, h⟩
  | case6 walk site rest hs ahead after hf ih =>
    rw [run_cons, run_cons, hs]
    have hturn : Turn setting goal (site :: rest, walk) (ahead ++ rest, after) :=
      .silent _ _ _ _ _ hs hf
    rcases hfollow site walk other takes_first hs h with
      ⟨_, _, last, ha, hb, hlike⟩ | ⟨failure', ha, _⟩
    · rw [hf] at ha
      cases ha
      simp only [hf, hb]
      exact ih last (fun _ _ _ ht => hfollow _ _ _ (hturn.takes ht)) hlike
    · rw [hf] at ha
      cases ha

end Following

end Search

/-- Both succeed with one value and related states, or both fail, not always alike. -/
def Matched {α S : Type} (R : S → S → Prop) (x y : Except Failure (α × S)) : Prop :=
  (∃ value s t, x = .ok (value, s) ∧ y = .ok (value, t) ∧ R s t) ∨
    (∃ failure, x = .error failure) ∧ ∃ failure, y = .error failure

theorem Alike.failed {α S : Type} {R : S → S → Prop} {x y : Except Failure (α × S)}
    (h : Alike R x y) {failure : Failure} (hx : x = .error failure) : y = .error failure := by
  rcases h with ⟨value, s, t, hx', -, -⟩ | ⟨other, hx', hy⟩
  · rw [hx] at hx'
    cases hx'
  · rw [hx] at hx'
    cases hx'
    exact hy

theorem Alike.matched {α S : Type} {R : S → S → Prop} {x y : Except Failure (α × S)}
    (h : Alike R x y) : Matched R x y :=
  h.imp id fun ⟨failure, hx, hy⟩ => ⟨⟨failure, hx⟩, failure, hy⟩

/-- Over related stores the documents at the paths agreed on load alike in both settings. -/
structure Accord (setting twin : Search.Setting) (agreed : Path → Prop)
    (R : Store → Store → Prop) : Prop where
  home : twin.disk.home = setting.disk.home
  environment : twin.environment = setting.environment
  lines : ∀ a b path, agreed path → R a b →
    Matched R (a.lines setting.disk path) (b.lines twin.disk path)

/-! ## A document that does not load -/

namespace Lookup

section Unloaded

variable {setting : Search.Setting} {store : Store} {path : Path} {line : Nat}
  {failure : Failure} (h : store.load setting.disk path (some line) = .error failure)
include h

theorem hover_unloaded {column : Nat} :
    hover setting store path line column = (.error failure, store) := by
  rw [hover, h]

theorem definition_unloaded {column : Nat} :
    definition setting store path line column = (.error failure, store) := by
  rw [definition, h]

end Unloaded

end Lookup

namespace Query

def cursor? : Query → Option (Path × Nat)
  | .hover path line _ => some (path, line)
  | .definition path line _ => some (path, line)
  | _ => none

def refused (failure : Failure) : Query → Answer
  | .hover .. => .hover (.error failure)
  | .definition .. => .location (.error failure)
  | .instrument .. | .variable .. | .resolve .. => .descriptor (.error failure)
  | .find _ _ _ visited => .found (.error failure) visited
  | .candidates _ _ _ _ visited => .candidates (.error failure) visited

theorem loads_cursor {query : Query} {path : Path} {line : Nat} (setting : Search.Setting)
    (store : Store) (hc : query.cursor? = some (path, line)) : query.Loads setting store path := by
  cases query with
  | hover q line column =>
    cases hc
    exact .inl rfl
  | definition q line column =>
    cases hc
    exact .inl rfl
  | instrument | «variable» | find | candidates | resolve => cases hc

theorem ask_unloaded {setting : Search.Setting} {store : Store} {query : Query} {path : Path}
    {line : Nat} {failure : Failure} (hc : query.cursor? = some (path, line))
    (hl : store.load setting.disk path (some line) = .error failure) :
    query.ask setting store = (query.refused failure, store) := by
  cases query with
  | hover =>
    cases hc
    rw [ask, Lookup.hover_unloaded hl]
    rfl
  | definition =>
    cases hc
    rw [ask, Lookup.definition_unloaded hl]
    rfl
  | instrument | «variable» | find | candidates | resolve => cases hc

end Query

/-! ## Settings in accord -/

section Accords

variable {setting twin : Search.Setting} {agreed : Path → Prop} {R : Store → Store → Prop}
  {a b : Store} (hA : Accord setting twin agreed R)
include hA

theorem Accord.load {path : Path} (hG : agreed path) (h : R a b) (anchor : Option Nat) :
    Matched R (a.load setting.disk path anchor) (b.load twin.disk path anchor) := by
  unfold Store.load
  rcases hA.lines a b path hG h with
    ⟨lines, s, t, ha, hb, hst⟩ | ⟨⟨failure, ha⟩, other, hb⟩
  · exact .inl ⟨Snapshot.make path lines anchor, s, t, by rw [ha], by rw [hb], hst⟩
  · exact .inr ⟨⟨failure, by rw [ha]⟩, other, by rw [hb]⟩

namespace Search

open Walk (Like)

theorem openTarget_lockstep (h : R a b) (directive : Directive)
    (hG : ∀ environment, setting.environment = some environment →
      agreed (directive.target environment)) :
    Alike R (openTarget setting a directive) (openTarget twin b directive) := by
  unfold openTarget
  rw [hA.environment]
  cases he : setting.environment with
  | none => exact .inr ⟨_, rfl, rfl⟩
  | some environment =>
    rcases hA.load (hG environment he) h none with
      ⟨doc, s, t, ha, hb, hst⟩ | ⟨⟨failure, ha⟩, other, hb⟩
    · exact .inl ⟨some doc, s, t, by simp only [ha], by simp only [hb], hst⟩
    · exact .inl ⟨none, a, b, by simp only [ha], by simp only [hb], h⟩

variable {walk other : Walk} {goal : Goal}

theorem follow_lockstep (h : Like R walk other) (site : Site)
    (hs : goal.sign site.text = .silent)
    (hG : ∀ path, sends setting goal site = some path → agreed path) :
    Alike (Like R) (follow setting goal site walk) (follow twin goal site other) := by
  unfold follow
  cases hd : directiveOf goal site with
  | none => exact .inl ⟨[], walk, other, rfl, rfl, h⟩
  | some directive =>
    have htarget (environment : Path) (he : setting.environment = some environment) :
        agreed (directive.target environment) := hG _ (sends_target hs hd he)
    rcases openTarget_lockstep hA h.2 directive htarget with
      ⟨found, s, t, ha, hb, hst⟩ | ⟨failure, ha, hb⟩
    · simp only [ha, hb]
      have hlike : Like R { walk with store := s } { other with store := t } := ⟨h.1, hst⟩
      cases found with
      | none => exact .inl ⟨[], _, _, rfl, rfl, hlike⟩
      | some doc =>
        cases directive with
        | bank name => exact .inl ⟨_, _, _, rfl, rfl, hlike⟩
        | inclusion name =>
          dsimp only
          rw [hA.home, hlike.hasEntered]
          split
          · exact .inl ⟨[], _, _, rfl, rfl, hlike⟩
          · exact .inl ⟨_, _, _, rfl, rfl, congrArg (· ++ [doc.path]) h.1, hst⟩
    · exact .inr ⟨failure, by simp only [ha], by simp only [hb]⟩

theorem run_accord (agenda : List Site) (h : Like R walk other)
    (hG : ∀ path, Loads setting goal (agenda, walk) path → agreed path) :
    Together (Like R) (run setting goal agenda walk) (run twin goal agenda other) :=
  run_lockstep agenda walk other
    (fun site here _ ht hs hlike => follow_lockstep hA hlike site hs fun path hp =>
      hG path ⟨site, here, ht, hp⟩) h

theorem start_accord (goal : Goal) (doc : Snapshot) (lines : List Nat) (shown : Text)
    (h : Like R walk other)
    (hG : ∀ path, Loads setting goal (opening setting.disk.home doc lines shown walk) path →
      agreed path) :
    Together (Like R) (start setting goal doc lines shown walk)
      (start twin goal doc lines shown other) := by
  unfold start
  rw [hA.home, ← h.hasEntered]
  unfold opening at hG
  split
  · exact ⟨rfl, h⟩
  · rename_i hv
    rw [if_neg hv] at hG
    exact run_accord hA _ ⟨congrArg (· ++ [doc.path]) h.1, h.2⟩ hG

end Search

theorem find_accord {walk other : Search.Walk} (h : walk.Like R other) (doc : Snapshot)
    (id top : Nat) (hG : ∀ path, Instrument.Loads setting doc id top walk path → agreed path) :
    Together (Search.Walk.Like R) (Instrument.find setting doc id top walk)
      (Instrument.find twin doc id top other) :=
  (Search.start_accord hA (Instrument.goal id) doc (doc.upward top) doc.stem h hG).map
    fun outcome => outcome.map (·.candidates.head?)

theorem instrument_accord (h : R a b) (doc : Snapshot) (id : Nat)
    (hG : ∀ path, Instrument.Loads setting doc id 0 ⟨a, []⟩ path → agreed path) :
    Together R (Instrument.resolve setting doc id a) (Instrument.resolve twin doc id b) :=
  have hlike : Search.Walk.Like R ⟨a, []⟩ ⟨b, []⟩ := ⟨rfl, h⟩
  have ⟨hfound, _, hstore⟩ := find_accord hA hlike doc id 0 hG
  ⟨hfound, hstore⟩

theorem candidates_accord {walk other : Search.Walk} (h : walk.Like R other) (doc : Snapshot)
    (token : Token) (shown : Text) (direction : Variable.Direction)
    (hG : ∀ path, Variable.PassLoads setting doc token shown direction walk path →
      agreed path) :
    Together (Search.Walk.Like R) (Variable.candidates setting doc token shown direction walk)
      (Variable.candidates twin doc token shown direction other) :=
  Search.start_accord hA (Variable.goal token) doc _ _ h hG

theorem variable_accord (h : R a b) (doc : Snapshot) (token : Token) (shown : Text)
    (hG : ∀ path, Variable.Loads setting doc token shown a path → agreed path) :
    Together R (Variable.resolve setting doc token shown a)
      (Variable.resolve twin doc token shown b) := by
  have hlike : Search.Walk.Like R ⟨a, []⟩ ⟨b, []⟩ := ⟨rfl, h⟩
  obtain ⟨hup, hlike⟩ := candidates_accord hA hlike doc token shown (.backward 0)
    fun path hp => hG path (.inl hp)
  -- what the second pass loads counts only if the first has not ended the search
  have hsecond (above : Search.Outcome) (walk : Search.Walk)
      (hc : Variable.candidates setting doc token shown (.backward 0) ⟨a, []⟩ = (.ok above, walk))
      (hs : above.shortCircuited = false) (path : Path)
      (hp : Variable.PassLoads setting doc token shown .forward ⟨walk.store, []⟩ path) :
      agreed path := hG path (.inr ⟨above, walk, hc, hs, hp⟩)
  unfold Variable.resolve
  revert hup hlike hsecond
  generalize Variable.candidates setting doc token shown (.backward 0) ⟨a, []⟩ = x
  generalize Variable.candidates twin doc token shown (.backward 0) ⟨b, []⟩ = y
  obtain ⟨above, walk⟩ := x
  obtain ⟨_, other⟩ := y
  rintro rfl hlike hsecond
  cases above with
  | error failure => exact ⟨rfl, hlike.2⟩
  | ok above =>
    dsimp only
    cases hs : above.shortCircuited with
    | true => exact ⟨rfl, hlike.2⟩
    | false =>
      have hstores : Search.Walk.Like R ⟨walk.store, []⟩ ⟨other.store, []⟩ := ⟨rfl, hlike.2⟩
      obtain ⟨hdown, hlike'⟩ := candidates_accord hA hstores doc token shown .forward
        (hsecond above walk rfl hs)
      revert hdown hlike'
      generalize Variable.candidates setting doc token shown .forward ⟨walk.store, []⟩ = x
      generalize Variable.candidates twin doc token shown .forward ⟨other.store, []⟩ = y
      obtain ⟨below, walk⟩ := x
      obtain ⟨_, other⟩ := y
      rintro rfl hlike'
      cases below with
      | error failure => exact ⟨rfl, hlike'.2⟩
      | ok below =>
        simp only [Bool.false_eq_true, if_false]
        split
        · exact ⟨rfl, hlike'.2⟩
        · exact ⟨rfl, hlike'.2⟩

namespace Lookup

theorem seek_accord (h : R a b) (doc : Snapshot) (reference : Reference)
    (hG : ∀ path, SeekLoads setting doc a reference path → agreed path) :
    Together R (seek setting doc a reference) (seek twin doc b reference) := by
  cases reference with
  | instrument id => exact instrument_accord hA h _ id hG
  | token token => exact variable_accord hA h doc token currentDocument hG

theorem hover_accord (h : R a b) (path : Path) (line column : Nat)
    (hG : ∀ other, CursorLoads setting a path line (HoverSeeks column) other → agreed other)
    (hl : ∃ loaded, a.load setting.disk path (some line) = .ok loaded) :
    Together R (hover setting a path line column) (hover twin b path line column) := by
  obtain ⟨loaded, hl⟩ := hl
  rcases hA.load (hG path (.inl rfl)) h (some line) with
    ⟨doc, s, t, ha, hb, hst⟩ | ⟨⟨failure, ha⟩, -⟩
  · cases ht : doc.lines[line]? with
    | none => simpa only [hover, ha, hb, ht] using ⟨rfl, hst⟩
    | some text =>
      rw [hover_line ha ht, hover_line hb ht]
      rcases hr : referenceAt text column with failure | _ | reference
      · exact ⟨rfl, hst⟩
      · exact ⟨rfl, hst⟩
      · dsimp only
        cases htabled : tabled text reference with
        | some shown => exact ⟨rfl, hst⟩
        | none =>
          refine (seek_accord hA hst doc reference fun other ho => hG other (.inr ?_)).map _
          exact ⟨doc, s, text, reference, ha, ht, ⟨hr, htabled⟩, ho⟩
  · rw [hl] at ha
    cases ha

theorem definition_accord (h : R a b) (path : Path) (line column : Nat)
    (hG : ∀ other, CursorLoads setting a path line (JumpSeeks column) other → agreed other)
    (hl : ∃ loaded, a.load setting.disk path (some line) = .ok loaded) :
    Together R (definition setting a path line column) (definition twin b path line column) := by
  obtain ⟨loaded, hl⟩ := hl
  rcases hA.load (hG path (.inl rfl)) h (some line) with
    ⟨doc, s, t, ha, hb, hst⟩ | ⟨⟨failure, ha⟩, -⟩
  · cases ht : doc.lines[line]? with
    | none => simpa only [definition, ha, hb, ht] using ⟨rfl, hst⟩
    | some text =>
      cases htable : Table.ofLine text with
      | some table =>
        rw [definition_tabled ha ht table htable, definition_tabled hb ht table htable]
        exact ⟨rfl, hst⟩
      | none =>
        cases hdirective : Directive.parse text with
        | some directive =>
          rw [definition_directive ha ht htable directive hdirective,
            definition_directive hb ht htable directive hdirective, hA.environment]
          cases setting.environment <;> exact ⟨rfl, hst⟩
        | none =>
          rw [definition_line ha ht htable hdirective, definition_line hb ht htable hdirective]
          rcases hr : referenceAt text column with failure | _ | reference
          · exact ⟨rfl, hst⟩
          · exact ⟨rfl, hst⟩
          · refine (seek_accord hA hst doc reference fun other ho => hG other (.inr ?_)).map _
            exact ⟨doc, s, text, reference, ha, ht, ⟨htable, hdirective, hr⟩, ho⟩
  · rw [hl] at ha
    cases ha

theorem instrumentAbove_accord (h : R a b) (path : Path) (anchor id : Nat)
    (hG : ∀ other, (Query.instrument path anchor id).Loads setting a other → agreed other) :
    Together R (instrumentAbove setting a path anchor id)
      (instrumentAbove twin b path anchor id) := by
  unfold instrumentAbove
  rcases hA.load (hG path (.inl rfl)) h (some anchor) with
    ⟨doc, s, t, ha, hb, hst⟩ | ⟨⟨failure, ha⟩, other, hb⟩
  · simp only [ha, hb]
    exact instrument_accord hA hst doc id fun other ho => hG other (.inr ⟨doc, s, ha, ho⟩)
  · simp only [ha, hb]
    exact ⟨rfl, h⟩

theorem variableAround_accord (h : R a b) (path : Path) (anchor : Nat) (token : Token)
    (hG : ∀ other, (Query.variable path anchor token).Loads setting a other → agreed other) :
    Together R (variableAround setting a path anchor token)
      (variableAround twin b path anchor token) := by
  unfold variableAround
  rcases hA.load (hG path (.inl rfl)) h (some anchor) with
    ⟨doc, s, t, ha, hb, hst⟩ | ⟨⟨failure, ha⟩, other, hb⟩
  · simp only [ha, hb]
    exact variable_accord hA hst doc token currentDocument fun other ho =>
      hG other (.inr ⟨doc, s, ha, ho⟩)
  · simp only [ha, hb]
    exact ⟨rfl, h⟩

end Lookup

namespace Query

/-- A question is answered alike in both settings, unless it is asked from a cursor in a
document that does not load. -/
theorem ask_accord (h : R a b) (query : Query)
    (hG : ∀ path, query.Loads setting a path → agreed path)
    (hl : ∀ path line, query.cursor? = some (path, line) →
      ∃ loaded, a.load setting.disk path (some line) = .ok loaded) :
    Together R (query.ask setting a) (query.ask twin b) := by
  have hlike (visited : List Path) :
      Search.Walk.Like R ⟨a, visited⟩ ⟨b, visited⟩ := ⟨rfl, h⟩
  cases query with
  | hover path line column =>
    exact (Lookup.hover_accord hA h path line column hG (hl path line rfl)).map _
  | definition path line column =>
    exact (Lookup.definition_accord hA h path line column hG (hl path line rfl)).map _
  | instrument path anchor number =>
    exact (Lookup.instrumentAbove_accord hA h path anchor number hG).map _
  | «variable» path anchor token =>
    exact (Lookup.variableAround_accord hA h path anchor token hG).map _
  | find doc number top visited =>
    have ⟨hfound, hvisited, hstore⟩ := find_accord hA (hlike visited) doc number top hG
    refine ⟨?_, hstore⟩
    show Answer.found _ _ = Answer.found _ _
    rw [hfound, hvisited]
  | candidates doc token shown direction visited =>
    have ⟨houtcome, hvisited, hstore⟩ :=
      candidates_accord hA (hlike visited) doc token shown direction hG
    refine ⟨?_, hstore⟩
    show Answer.candidates _ _ = Answer.candidates _ _
    rw [houtcome, hvisited]
  | resolve doc token shown => exact (variable_accord hA h doc token shown hG).map _

theorem ask_alike (h : R a b) (query : Query)
    (hG : ∀ path, query.Loads setting a path → agreed path)
    (hl : ∀ path line failure, query.cursor? = some (path, line) →
      a.load setting.disk path (some line) = .error failure →
        b.load twin.disk path (some line) = .error failure) :
    Together R (query.ask setting a) (query.ask twin b) := by
  cases hc : query.cursor? with
  | none => exact ask_accord hA h query hG fun path line hp => by simp [hc] at hp
  | some cursor =>
    cases ha : a.load setting.disk cursor.1 (some cursor.2) with
    | error failure =>
      rw [ask_unloaded hc ha, ask_unloaded hc (hl _ _ _ hc ha)]
      exact ⟨rfl, h⟩
    | ok loaded =>
      refine ask_accord hA h query hG fun path line hp => ?_
      obtain rfl : cursor = (path, line) := Option.some.inj (hc.symm.trans hp)
      exact ⟨loaded, ha⟩

end Query

end Accords

end MmlLookup
