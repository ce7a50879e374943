import MmlLookup.Proofs.Expansion
import MmlLookup.Proofs.InstrumentSearch
import MmlLookup.Proofs.Resolution

/-!
# Answers in reading order

What a search answers is read off the expansion of its document, which is the same for
everything that may be sought. An instrument is the first definition in it. A pass for a
variable gives its first exact match, or all near matches in order. Both passes together
give the first exact match above the anchor, or else the first one below it, or else the
first of the longest near matches.
-/

set_option autoImplicit false

namespace MmlLookup

open Search (Site Walk Expansion)

namespace Variable

/-- Variables are sought without banks, and an included document is shown by the name it
is included under. -/
def manner : Search.Manner := ⟨false, fun name _ => name⟩

/-- The descriptor of a line whose key bears a relation to the token sought. It is perfect
if the key is the very token. -/
def described (token : Token) (relation : Match) (site : Site) : Option Descriptor :=
  match definitionParts site.text with
  | none => none
  | some (key, definition) =>
    if key.compare token = relation then some (site.descriptor definition (relation = .exactly))
    else none

theorem hit?_described (token : Token) : Search.hit? (goal token) = described token .exactly := by
  funext site
  unfold Search.hit? described goal
  cases hd : definitionParts site.text with
  | none => simp only [hd]
  | some parts => cases hc : parts.1.compare token <;> simp [hd, hc]

theorem near?_described (token : Token) : Search.near? (goal token) = described token .nearly := by
  funext site
  unfold Search.near? described goal
  cases hd : definitionParts site.text with
  | none => simp only [hd]
  | some parts => cases hc : parts.1.compare token <;> simp [hd, hc]

theorem described_of {token : Token} {relation : Match} {site : Site} {found : Descriptor}
    (h : described token relation site = some found) :
    ∃ definition, found = site.descriptor definition (relation = .exactly) := by
  unfold described at h
  split at h
  · cases h
  · split at h
    · exact ⟨_, (Option.some.inj h).symm⟩
    · cases h

theorem described_perfect {token : Token} {relation : Match} {site : Site} {found : Descriptor}
    (h : described token relation site = some found) : found.perfect = (relation = .exactly) := by
  obtain ⟨definition, rfl⟩ := described_of h
  simp [Site.descriptor]

/-! ## One pass -/

theorem lines_nodup (doc : Snapshot) (direction : Direction) : (direction.lines doc).Nodup := by
  cases direction with
  | backward top => exact List.pairwise_reverse.2 ((List.nodup_range' 1).imp Ne.symm)
  | forward => exact List.nodup_range'

def spotOf (home : Trail) (found : Descriptor) : Text × Nat :=
  (found.location.path.key home, found.location.line)

/-- A pass reads off one sequence of lines, the expansion of those it covers. No line comes
twice. The first exact match is the only candidate, and without one all near matches are
candidates, in order. -/
structure Flattens (disk : Disk) (environment : Path) (doc : Snapshot) (shown : Text)
    (direction : Direction) (walk : Walk) (lines : List Site) : Prop where
  expansion : ∃ last, Expansion disk environment manner doc (direction.lines doc) shown
    (walk.enter doc.path) lines last
  once : (lines.map (Site.spot disk.home)).Nodup
  first : ∀ token found, lines.findSome? (described token .exactly) = some found →
    (candidates ⟨disk, some environment⟩ doc token shown direction walk).1 =
        .ok ⟨[found], true⟩ ∧ found.perfect = true
  others : ∀ token, lines.findSome? (described token .exactly) = none →
    ∃ found, found = lines.filterMap (described token .nearly) ∧
      (candidates ⟨disk, some environment⟩ doc token shown direction walk).1 =
        .ok ⟨found, false⟩ ∧
      (found.map (spotOf disk.home)).Nodup ∧ ∀ candidate ∈ found, candidate.perfect = false

section Passes

variable {disk : Disk} {environment : Path} {doc : Snapshot} {shown : Text} {walk last : Walk}
  {lines : List Site}

theorem candidates_expanded (token : Token) (direction : Direction)
    (h : walk.hasEntered disk.home doc.path = false)
    (he : Expansion disk environment manner doc (direction.lines doc) shown
      (walk.enter doc.path) lines last) :
    (candidates ⟨disk, some environment⟩ doc token shown direction walk).1 =
      .ok (match lines.findSome? (described token .exactly) with
        | some found => ⟨[found], true⟩
        | none => ⟨lines.filterMap (described token .nearly), false⟩) := by
  have hends := Search.run_ends (goal_quiet token) (he.expands.sweep (goal token))
  rw [candidates, Search.start, if_neg (by simp [h]), hends.1, Search.answer_eq, hit?_described,
    near?_described]
  rfl

theorem spots_nodup {home : Trail} {token : Token} {relation : Match}
    (h : (lines.map (Site.spot home)).Nodup) :
    ((lines.filterMap (described token relation)).map (spotOf home)).Nodup := by
  refine List.pairwise_map.2 ((List.pairwise_map.1 h).filterMap _ ?_)
  intro first second hne found hfound other hother
  obtain ⟨_, rfl⟩ := described_of hfound
  obtain ⟨_, rfl⟩ := described_of hother
  exact hne

end Passes

/-- A pass in a document not yet entered reads off one sequence of lines, the same for every
token. -/
theorem candidates_flattened (disk : Disk) (environment : Path) (doc : Snapshot) (shown : Text)
    (direction : Direction) (walk : Walk) (h : walk.hasEntered disk.home doc.path = false) :
    ∃ lines, Flattens disk environment doc shown direction walk lines := by
  obtain ⟨lines, last, he⟩ := Search.expansion_exists disk environment (goal (.named [])) doc
    (direction.lines doc) shown (walk.enter doc.path)
  have honce : (lines.map (Site.spot disk.home)).Nodup :=
    List.pairwise_map.2
      (he.expands.apart rfl (Search.enter_hasEntered _ _ _) (lines_nodup doc direction))
  refine ⟨lines, ⟨last, he⟩, honce, fun token found hf => ?_, fun token hn => ?_⟩
  · refine ⟨by rw [candidates_expanded token direction h he, hf], ?_⟩
    obtain ⟨site, -, hsite⟩ := List.exists_of_findSome?_eq_some hf
    simpa using described_perfect hsite
  · refine ⟨_, rfl, by rw [candidates_expanded token direction h he, hn], spots_nodup honce, ?_⟩
    intro candidate hc
    obtain ⟨site, -, hsite⟩ := List.mem_filterMap.1 hc
    simpa using described_perfect hsite

def verse : Disk := .holding
  [("env/verse.mml", "!lea one\n#Include song.mml\n#Include verse.mml\n!le two".toUTF8, 1),
    ("env/song.mml", "!lead three".toUTF8, 1)]

def verseSong : Snapshot :=
  .make "song.mml".toList ["!l four".toList, "#Include verse.mml".toList] none

/-- A walk that has entered one of the files, and not the document. -/
theorem candidates_flattened_verse :
    (⟨.empty, ["env/song.mml".toList]⟩ : Walk).hasEntered verse.home verseSong.path = false ∧
      ∃ lines, Flattens verse "env".toList verseSong "Current".toList (.backward 0)
        ⟨.empty, ["env/song.mml".toList]⟩ lines := by
  have h : (⟨.empty, ["env/song.mml".toList]⟩ : Walk).hasEntered verse.home verseSong.path =
      false := by decide +kernel
  exact ⟨h, candidates_flattened verse "env".toList verseSong "Current".toList (.backward 0) _ h⟩

/-! ## Both passes -/

/-- The first of the candidates with the longest definition: those before it are shorter,
those behind it are no longer. -/
def FirstLongest (candidates : List Descriptor) (best : Descriptor) : Prop :=
  ∃ before behind, candidates = before ++ best :: behind ∧
    (∀ other ∈ before, other.definition.length < best.definition.length) ∧
    ∀ other ∈ behind, other.definition.length ≤ best.definition.length

theorem FirstLongest.longest {candidates : List Descriptor} {best : Descriptor}
    (h : FirstLongest candidates best) : longest candidates = some best := by
  obtain ⟨before, behind, rfl, hbefore, hbehind⟩ := h
  induction before with
  | nil =>
    rw [List.nil_append, Variable.longest]
    cases hl : Variable.longest behind with
    | none => rfl
    | some other =>
      have hle := hbehind other (longest_spec behind other hl).1
      dsimp only
      rw [if_neg (by omega)]
  | cons first before ih =>
    have hrest := ih fun other ho => hbefore other (List.mem_cons_of_mem _ ho)
    rw [List.cons_append, Variable.longest, hrest]
    dsimp only
    rw [if_pos (hbefore first List.mem_cons_self)]

theorem longest_firstLongest {candidates : List Descriptor} {best : Descriptor}
    (h : longest candidates = some best) : FirstLongest candidates best := by
  induction candidates generalizing best with
  | nil => cases h
  | cons first rest ih =>
    rw [longest] at h
    cases hl : longest rest with
    | none =>
      obtain rfl := (longest_none rest).1 hl
      obtain rfl : first = best := by simpa [hl] using h
      exact ⟨[], [], rfl, by simp, by simp⟩
    | some other =>
      simp only [hl] at h
      split at h
      · rename_i hlt
        obtain rfl : other = best := Option.some.inj h
        obtain ⟨before, behind, rfl, hbefore, hbehind⟩ := ih hl
        refine ⟨first :: before, behind, rfl, fun candidate hc => ?_, hbehind⟩
        rcases List.mem_cons.1 hc with rfl | hc
        · exact hlt
        · exact hbefore candidate hc
      · rename_i hge
        obtain rfl : first = best := Option.some.inj h
        refine ⟨[], rest, rfl, by simp, fun candidate hc => ?_⟩
        exact Nat.le_trans ((longest_spec rest other hl).2 candidate hc) (Nat.le_of_not_lt hge)

theorem longest_iff (candidates : List Descriptor) (best : Descriptor) :
    longest candidates = some best ↔ FirstLongest candidates best :=
  ⟨longest_firstLongest, FirstLongest.longest⟩

/-- What is selected from the lines above and below the anchor: the first exact match
above, or else the first one below, or else the first of the longest near matches. -/
inductive Selects (token : Token) (above below : List Site) : Option Descriptor → Prop
  | above (found : Descriptor) :
      above.findSome? (described token .exactly) = some found →
      Selects token above below (some found)
  | below (found : Descriptor) :
      above.findSome? (described token .exactly) = none →
      below.findSome? (described token .exactly) = some found →
      Selects token above below (some found)
  | longest (best : Descriptor) :
      above.findSome? (described token .exactly) = none →
      below.findSome? (described token .exactly) = none →
      FirstLongest ((above ++ below).filterMap (described token .nearly)) best →
      Selects token above below (some best)
  | nothing :
      above.findSome? (described token .exactly) = none →
      below.findSome? (described token .exactly) = none →
      (above ++ below).filterMap (described token .nearly) = [] →
      Selects token above below none

theorem selects_iff (token : Token) (above below : List Site) (found : Option Descriptor) :
    Selects token above below found ↔ verdict token (above ++ below) = found := by
  rw [verdict, List.findSome?_append, hit?_described, near?_described]
  constructor
  · intro h
    cases h with
    | above found ha => simp [ha]
    | below found ha hb => simp [ha, hb]
    | longest best ha hb hl => simpa [ha, hb] using hl.longest
    | nothing ha hb hn => simp [ha, hb, hn, longest]
  · rintro rfl
    cases ha : above.findSome? (described token .exactly) with
    | some found => exact .above found ha
    | none =>
      cases hb : below.findSome? (described token .exactly) with
      | some found => exact .below found ha hb
      | none =>
        cases hl : longest ((above ++ below).filterMap (described token .nearly)) with
        | some best => simpa [hl] using Selects.longest best ha hb ((longest_iff _ _).1 hl)
        | none => simpa [hl] using Selects.nothing ha hb ((longest_none _).1 hl)

/-- The lines above and below the anchor, each expanded with no other document entered,
settle every token. -/
theorem resolve_selects (disk : Disk) (environment : Path) (doc : Snapshot) (shown : Text)
    (store : Store) :
    ∃ above middle below last,
      Expansion disk environment manner doc (doc.upward 0) shown ⟨store, [doc.path]⟩ above
        middle ∧
      Expansion disk environment manner doc doc.downward shown ⟨middle.store, [doc.path]⟩ below
        last ∧
      ∀ token, ∃ found,
        (resolve ⟨disk, some environment⟩ doc token shown store).1 = .ok found ∧
        ∀ other, Selects token above below other ↔ other = found := by
  obtain ⟨above, middle, habove⟩ := Search.expansion_exists disk environment (goal (.named []))
    doc (doc.upward 0) shown ⟨store, [doc.path]⟩
  obtain ⟨below, last, hbelow⟩ := Search.expansion_exists disk environment (goal (.named []))
    doc doc.downward shown ⟨middle.store, [doc.path]⟩
  refine ⟨above, middle, below, last, habove, hbelow, fun token => ?_⟩
  have hresolve := resolve_of_sweeps (habove.expands.sweep (goal token))
    (hbelow.expands.sweep (goal token))
  exact ⟨_, hresolve, fun other => (selects_iff token above below other).trans eq_comm⟩

end Variable

namespace Instrument

def manner : Search.Manner := ⟨true, fun _ path => path.stem.getD []⟩

def defined (id : Nat) (site : Site) : Option Descriptor :=
  (definitionText site.text id).map fun text => site.descriptor text true

/-- Every instrument is the first definition in one sequence of lines, the same for all. -/
theorem find_nearest (disk : Disk) (environment : Path) (doc : Snapshot) (top : Nat)
    (store : Store) :
    ∃ lines last,
      Expansion disk environment manner doc (doc.upward top) doc.stem ⟨store, [doc.path]⟩ lines
        last ∧
      ∀ id, (find ⟨disk, some environment⟩ doc id top ⟨store, []⟩).1 =
        .ok (lines.findSome? (defined id)) := by
  obtain ⟨lines, last, he⟩ := Search.expansion_exists disk environment (goal 0) doc
    (doc.upward top) doc.stem ⟨store, [doc.path]⟩
  refine ⟨lines, last, he, fun id => ?_⟩
  have hsweep := he.expands.sweep (goal id)
  have hhit : Search.hit? (goal id) = defined id := funext (hit?_goal id)
  rw [(find_of_sweep hsweep).1, hhit]

end Instrument

end MmlLookup
