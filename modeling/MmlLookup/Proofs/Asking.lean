import MmlLookup.Lookup
import MmlLookup.Proofs.Agreement

/-!
# Three ways of asking

A host shows what is under a cursor, jumps to it, or asks for a definition by its name.
Whichever way it asks, the reference is sought by one search from one place, so the
answers agree and leave the same documents in the store. Only on table parts they
differ: an instrument number is shown from its table and leads nowhere.
-/

set_option autoImplicit false

namespace MmlLookup

inductive Reference where
  | instrument (id : Nat)
  | token (token : Token)

namespace Lookup

open Search (Setting)

def referenceAt (text : Text) (column : Nat) : Except Failure (Option Reference) :=
  match Cursor.instrumentAt text column with
  | .error failure => .error failure
  | .ok (some id) => .ok (some (.instrument id))
  | .ok none => (Cursor.variableAt text column).map (·.map .token)

def spelling : Reference → Text
  | .instrument id => instrumentReference id
  | .token token => variableReference token

def seek (setting : Setting) (doc : Snapshot) (store : Store) :
    Reference → Except Failure (Option Descriptor) × Store
  | .instrument id => instrumentFromEnd setting doc id store
  | .token token => Variable.resolve setting doc token currentDocument store

/-- What is shown without a search: on a table part, the table's entry. -/
def tabled (text : Text) : Reference → Option (Option Hover)
  | .instrument id => (Table.ofLine text).map (tableHover · id)
  | .token _ => none

def definitions (shown : Except Failure (Option Hover) × Store) :
    Except Failure (Option Descriptor) × Store := (shown.1.map (·.bind (·.definition)), shown.2)

def places (sought : Except Failure (Option Descriptor) × Store) :
    Except Failure (Option Location) × Store := (sought.1.map (·.map (·.location)), sought.2)

def shows (reference : Reference) (sought : Except Failure (Option Descriptor) × Store) :
    Except Failure (Option Hover) × Store :=
  (sought.1.map (·.map (found (spelling reference))), sought.2)

theorem definitions_shows (reference : Reference)
    (sought : Except Failure (Option Descriptor) × Store) :
    definitions (shows reference sought) = sought := by
  obtain ⟨result, store⟩ := sought
  rcases result with failure | _ | descriptor <;> rfl

theorem shows_defined (reference : Reference)
    (sought : Except Failure (Option Descriptor) × Store) (shown : Hover)
    (h : (shows reference sought).1 = .ok (some shown)) : shown.definition.isSome := by
  obtain ⟨result, store⟩ := sought
  rcases result with failure | _ | descriptor
  · cases h
  · cases h
  · cases h
    rfl

theorem referenceAt_instrument {text : Text} {column id : Nat}
    (h : Cursor.instrumentAt text column = .ok (some id)) :
    referenceAt text column = .ok (some (.instrument id)) := by
  rw [referenceAt, h]

theorem referenceAt_token {text : Text} {column : Nat} {token : Token}
    (hi : Cursor.instrumentAt text column = .ok none)
    (hv : Cursor.variableAt text column = .ok (some token)) :
    referenceAt text column = .ok (some (.token token)) := by
  rw [referenceAt, hi, hv]
  rfl

theorem tabled_none {text : Text} (h : Table.ofLine text = none) (reference : Reference) :
    tabled text reference = none := by
  cases reference with
  | instrument id => rw [tabled, h, Option.map_none]
  | token token => rfl

/-! ## From the cursor -/

section Cursor

variable {setting : Setting} {store after : Store} {path : Path} {line column : Nat}
  {doc : Snapshot} {text : Text}
  (hl : store.load setting.disk path (some line) = .ok (doc, after))
  (ht : doc.lines[line]? = some text)
include hl ht

theorem hover_line :
    hover setting store path line column =
      match referenceAt text column with
      | .error failure => (.error failure, after)
      | .ok none => (.ok none, after)
      | .ok (some reference) =>
        match tabled text reference with
        | some shown => (.ok shown, after)
        | none => shows reference (seek setting doc after reference) := by
  unfold hover referenceAt
  simp only [hl, ht]
  rcases Cursor.instrumentAt text column with failure | _ | id
  · rfl
  · rcases Cursor.variableAt text column with failure | _ | token <;> rfl
  · simp only [tabled]
    cases Table.ofLine text <;> rfl

theorem definition_line (htable : Table.ofLine text = none)
    (hdirective : Directive.parse text = none) :
    definition setting store path line column =
      match referenceAt text column with
      | .error failure => (.error failure, after)
      | .ok none => (.ok none, after)
      | .ok (some reference) => places (seek setting doc after reference) := by
  unfold definition referenceAt
  simp only [hl, ht, htable, hdirective]
  rcases Cursor.instrumentAt text column with failure | _ | id
  · rfl
  · rcases Cursor.variableAt text column with failure | _ | token <;> rfl
  · rfl

theorem hover_sought {reference : Reference}
    (hr : referenceAt text column = .ok (some reference))
    (htabled : tabled text reference = none) :
    hover setting store path line column = shows reference (seek setting doc after reference) := by
  rw [hover_line hl ht, hr]
  simp only [htabled]

theorem definition_hover (htable : Table.ofLine text = none)
    (hdirective : Directive.parse text = none) :
    definition setting store path line column =
      places (definitions (hover setting store path line column)) := by
  rw [definition_line hl ht htable hdirective, hover_line hl ht]
  rcases referenceAt text column with failure | _ | reference
  · rfl
  · rfl
  · simp only [tabled_none htable, definitions_shows]

theorem hover_defined (htable : Table.ofLine text = none) (shown : Hover)
    (h : (hover setting store path line column).1 = .ok (some shown)) :
    shown.definition.isSome := by
  rw [hover_line hl ht] at h
  generalize referenceAt text column = read at h
  rcases read with failure | _ | reference
  · cases h
  · cases h
  · simp only [tabled_none htable] at h
    exact shows_defined reference _ shown h

theorem definition_directive (htable : Table.ofLine text = none) (directive : Directive)
    (hdirective : Directive.parse text = some directive) :
    definition setting store path line column =
      match setting.environment with
      | none => (.error .configurationMissing, after)
      | some environment => (.ok (some ⟨directive.target environment, 0⟩), after) := by
  cases he : setting.environment <;>
    simp only [definition, hl, ht, htable, hdirective, he]

theorem definition_tabled (table : Table) (h : Table.ofLine text = some table) :
    definition setting store path line column = (.ok none, after) := by
  unfold definition
  simp only [hl, ht, h]

end Cursor

/-! ## By name -/

theorem load_withAnchor {disk : Disk} {store after : Store} {path : Path}
    {anchor : Option Nat} {doc : Snapshot} (h : store.load disk path anchor = .ok (doc, after))
    (line : Nat) : store.load disk path (some line) = .ok (doc.withAnchor line, after) := by
  unfold Store.load at h ⊢
  cases hlines : store.lines disk path with
  | error failure => simp [hlines] at h
  | ok loaded =>
    simp only [hlines, Except.ok.injEq, Prod.mk.injEq] at h
    obtain ⟨rfl, rfl⟩ := h
    rfl

theorem withAnchor_last (doc : Snapshot) (anchor : Nat) (h : doc.last ≤ anchor) :
    doc.withAnchor anchor = doc.withAnchor doc.last := by
  have hmin : min anchor (doc.lines.length - 1) = min doc.last (doc.lines.length - 1) := by
    unfold Snapshot.last at h ⊢
    omega
  simp only [Snapshot.withAnchor, Snapshot.make, hmin]

/-- The number of an instrument is sought from where a cursor seeks it. -/
theorem instrumentAbove_last {setting : Setting} {store after : Store} {path : Path}
    {line : Nat} {doc : Snapshot}
    (hl : store.load setting.disk path (some line) = .ok (doc, after)) (id anchor : Nat)
    (h : doc.last ≤ anchor) :
    instrumentAbove setting store path anchor id = instrumentFromEnd setting doc id after := by
  unfold instrumentAbove instrumentFromEnd
  rw [load_withAnchor hl anchor, withAnchor_last doc anchor h]

theorem variableAround_loaded {setting : Setting} {store after : Store} {path : Path}
    {line : Nat} {doc : Snapshot}
    (hl : store.load setting.disk path (some line) = .ok (doc, after)) (token : Token) :
    variableAround setting store path line token =
      Variable.resolve setting doc token currentDocument after := by
  unfold variableAround
  rw [hl]

structure OneAnswer (setting : Setting) (store after : Store) (path : Path)
    (line column : Nat) (doc : Snapshot) (text : Text) : Prop where
  jump : Table.ofLine text = none → Directive.parse text = none →
    definition setting store path line column =
      places (definitions (hover setting store path line column))
  defined : Table.ofLine text = none → ∀ shown,
    (hover setting store path line column).1 = .ok (some shown) → shown.definition.isSome
  /-- An instrument is the one asked for by its number from the end of the document. -/
  instrument : Table.ofLine text = none → ∀ id, Cursor.instrumentAt text column = .ok (some id) →
    ∀ anchor, doc.last ≤ anchor →
      definitions (hover setting store path line column) =
        instrumentAbove setting store path anchor id
  /-- A variable is the one asked for by its name around the cursor's line, on a table
  part too. -/
  named : Cursor.instrumentAt text column = .ok none →
    ∀ token, Cursor.variableAt text column = .ok (some token) →
      definitions (hover setting store path line column) =
        variableAround setting store path line token
  /-- A table part leads nowhere. An instrument is shown from its table, whatever the
  environment, and no document but the queried one is loaded. -/
  table : ∀ table, Table.ofLine text = some table →
    definition setting store path line column = (.ok none, after) ∧
      ∀ id, Cursor.instrumentAt text column = .ok (some id) → ∀ environment,
        hover ⟨setting.disk, environment⟩ store path line column =
          (.ok (tableHover table id), after)

/-- Hovers, jumps and queries by name agree about every line of a document that loads. -/
theorem asked_alike (setting : Setting) (store after : Store) (path : Path) (line column : Nat)
    (doc : Snapshot) (text : Text)
    (hl : store.load setting.disk path (some line) = .ok (doc, after))
    (ht : doc.lines[line]? = some text) :
    OneAnswer setting store after path line column doc text where
  jump := definition_hover hl ht
  defined := hover_defined hl ht
  instrument := by
    intro htable id hi anchor hanchor
    rw [hover_sought hl ht (referenceAt_instrument hi) (tabled_none htable _), definitions_shows,
      instrumentAbove_last hl id anchor hanchor]
    rfl
  named := by
    intro hi token hv
    rw [hover_sought hl ht (referenceAt_token hi hv) rfl, definitions_shows,
      variableAround_loaded hl token]
    rfl
  table := by
    intro table htable
    refine ⟨definition_tabled hl ht table htable, fun id hi environment => ?_⟩
    have hload : store.load (Setting.mk setting.disk environment).disk path (some line) =
        .ok (doc, after) := hl
    rw [hover_line hload ht, referenceAt_instrument hi]
    simp only [tabled, htable, Option.map_some]

def duet : Disk := .holding
  [("song.mml", "#Include lib.mml\nA @2 !lead\nG @2 !lead".toUTF8, 1),
    ("env/lib.mml", "@2 bass\n!lead o4".toUTF8, 2)]

def duetSong : Snapshot :=
  .make "song.mml".toList
    ["#Include lib.mml".toList, "A @2 !lead".toList, "G @2 !lead".toList] (some 1)

def duetStore : Store :=
  Store.empty.insert (Path.key duet.home "song.mml".toList) ⟨duetSong.lines, 1⟩

theorem asked_alike_duet :
    Store.empty.load duet "song.mml".toList (some 1) = .ok (duetSong, duetStore) ∧
      duetSong.lines[1]? = some "A @2 !lead".toList ∧
      OneAnswer ⟨duet, some "env".toList⟩ Store.empty duetStore "song.mml".toList 1 3 duetSong
        "A @2 !lead".toList := by
  have hl : Store.empty.load duet "song.mml".toList (some 1) = .ok (duetSong, duetStore) := rfl
  exact ⟨hl, rfl, asked_alike ⟨duet, some "env".toList⟩ Store.empty duetStore "song.mml".toList 1 3
    duetSong "A @2 !lead".toList hl rfl⟩

end Lookup

end MmlLookup
