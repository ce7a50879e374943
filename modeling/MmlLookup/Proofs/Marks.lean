import MmlLookup.Cursor
import MmlLookup.Proofs.Runs

/-!
# The reference under a cursor, by places

References are found from the left and do not overlap. What is found is told by places of
the line alone: an instrument token is a run of `at` signs with a numeral right behind it,
and a variable segment goes from the first exclamation mark of a word to the word's end.
The reference under the cursor is the leftmost of those that begin at or before the
cursor, end at or behind it, and have a blank somewhere before them.
-/

set_option autoImplicit false

namespace MmlLookup.Cursor

open Text (Edge Run)

/-! ## Marks from the left -/

section Scanning

variable {Mark : Type} {stands : Mark → Prop} {start : Mark → Nat} {test : Mark → Bool}
  {place : Nat} {marks : List Mark}

/-- A list of the marks that stand at a place or behind it. What is passed over on the way
to the next place holds no mark but the one that is found. -/
inductive Scan (stands : Mark → Prop) (start : Mark → Nat) : Nat → List Mark → Prop
  | done (place : Nat) :
      (∀ mark, stands mark → start mark < place) → Scan stands start place []
  | pass (place next : Nat) (marks : List Mark) :
      place ≤ next → (∀ mark, stands mark → place ≤ start mark → next ≤ start mark) →
      Scan stands start next marks → Scan stands start place marks
  | found (place next : Nat) (mark : Mark) (marks : List Mark) :
      stands mark → start mark = place → place < next →
      (∀ other, stands other → place ≤ start other → other = mark ∨ next ≤ start other) →
      Scan stands start next marks → Scan stands start place (mark :: marks)

structure Leftmost (stands : Mark → Prop) (start : Mark → Nat) (test : Mark → Bool)
    (place : Nat) (mark : Mark) : Prop where
  standing : stands mark
  onward : place ≤ start mark
  passes : test mark = true
  first : ∀ other, stands other → place ≤ start other → test other = true →
    start mark ≤ start other

theorem Scan.find?_some_iff (h : Scan stands start place marks) (mark : Mark) :
    marks.find? test = some mark ↔ Leftmost stands start test place mark := by
  induction h with
  | done place hnone =>
    constructor
    · intro hfind
      cases hfind
    · intro hleft
      have hlt := hnone mark hleft.standing
      have hge := hleft.onward
      omega
  | pass place next marks hle hnext _ ih =>
    -- nothing stands between the two places
    rw [ih]
    constructor
    · intro hleft
      refine ⟨hleft.standing, Nat.le_trans hle hleft.onward, hleft.passes,
        fun other ho hplace => ?_⟩
      exact hleft.first other ho (hnext other ho hplace)
    · intro hleft
      refine ⟨hleft.standing, hnext mark hleft.standing hleft.onward, hleft.passes,
        fun other ho hplace => ?_⟩
      exact hleft.first other ho (Nat.le_trans hle hplace)
  | found place next found marks hstands hstart hlt hothers _ ih =>
    by_cases hpasses : test found = true
    · rw [List.find?_cons_of_pos hpasses, Option.some.injEq]
      constructor
      · rintro rfl
        exact ⟨hstands, Nat.le_of_eq hstart.symm, hpasses, fun other _ hplace _ => hstart ▸ hplace⟩
      · intro hleft
        rcases hothers mark hleft.standing hleft.onward with heq | hbehind
        · exact heq.symm
        · have hle := hleft.first found hstands (Nat.le_of_eq hstart.symm) hpasses
          omega
    · -- the mark found fails the test, and any other stands behind it
      rw [List.find?_cons_of_neg hpasses, ih]
      constructor
      · intro hleft
        have hplace := hleft.onward
        refine ⟨hleft.standing, by omega, hleft.passes, fun other ho hother htest => ?_⟩
        rcases hothers other ho hother with heq | hbehind
        · exact absurd (heq ▸ htest) hpasses
        · exact hleft.first other ho hbehind htest
      · intro hleft
        rcases hothers mark hleft.standing hleft.onward with heq | hbehind
        · exact absurd (heq ▸ hleft.passes) hpasses
        · refine ⟨hleft.standing, hbehind, hleft.passes, fun other ho hother htest => ?_⟩
          exact hleft.first other ho (by omega) htest

theorem Scan.find?_none_iff (h : Scan stands start place marks) :
    marks.find? test = none ↔
      ∀ mark, stands mark → place ≤ start mark → test mark = false := by
  rw [List.find?_eq_none]
  induction h with
  | done place hnone =>
    constructor
    · intro _ mark hm hplace
      have hlt := hnone mark hm
      omega
    · intro _ mark hm
      cases hm
  | pass place next marks hle hnext _ ih =>
    rw [ih]
    constructor
    · intro hall mark hm hplace
      exact hall mark hm (hnext mark hm hplace)
    · intro hall mark hm hplace
      exact hall mark hm (Nat.le_trans hle hplace)
  | found place next found marks hstands hstart hlt hothers _ ih =>
    rw [List.forall_mem_cons, ih]
    constructor
    · rintro ⟨hfound, hall⟩ mark hm hplace
      rcases hothers mark hm hplace with heq | hbehind
      · exact heq ▸ eq_false_of_ne_true hfound
      · exact hall mark hm hbehind
    · intro hall
      refine ⟨by simp [hall found hstands (Nat.le_of_eq hstart.symm)], fun mark hm hbehind => ?_⟩
      exact hall mark hm (by omega)

theorem Scan.selection (h : Scan stands start place marks) (test : Mark → Bool) :
    (∀ mark, stands mark → place ≤ start mark → test mark = false) ∨
      ∃ mark, Leftmost stands start test place mark := by
  cases hfind : marks.find? test with
  | none => exact .inl (h.find?_none_iff.1 hfind)
  | some mark => exact .inr ⟨mark, (h.find?_some_iff mark).1 hfind⟩

end Scanning

/-- A stretch with a blank somewhere before it covers the cursor, its end included. -/
structure Covered (text : Text) (cursor first last : Nat) : Prop where
  blank : ∃ place c, place < first ∧ text[place]? = some c ∧ Text.isBlank c = true
  first_le : first ≤ cursor
  le_last : cursor ≤ last

theorem covers_iff (text : Text) (cursor first last : Nat) :
    covers text cursor first last = true ↔ Covered text cursor first last := by
  have hblank : (text.take first).any Text.isBlank = true ↔
      ∃ place c, place < first ∧ text[place]? = some c ∧ Text.isBlank c = true := by
    simp only [List.any_eq_true, List.mem_iff_getElem?, List.getElem?_take]
    constructor
    · rintro ⟨c, ⟨place, hc⟩, hb⟩
      by_cases hlt : place < first
      · rw [if_pos hlt] at hc
        exact ⟨place, c, hlt, hc, hb⟩
      · rw [if_neg hlt] at hc
        cases hc
    · rintro ⟨place, c, hlt, hc, hb⟩
      exact ⟨c, ⟨place, by rw [if_pos hlt, hc]⟩, hb⟩
  unfold covers
  rw [Bool.and_eq_true, Bool.and_eq_true, decide_eq_true_eq, decide_eq_true_eq, hblank]
  constructor
  · rintro ⟨⟨hb, hfirst⟩, hlast⟩
    exact ⟨hb, hfirst, hlast⟩
  · intro h
    exact ⟨⟨h.blank, h.first_le⟩, h.le_last⟩

/-! ## Instruments -/

structure InstrumentToken (text : Text) (first middle last : Nat) : Prop where
  ats : Run (· = '@') text first middle
  numeral : Numeral.Stands text middle last

def InstrumentMark.between (text : Text) (first middle last : Nat) : InstrumentMark :=
  ⟨first, middle - first, text.extract middle last⟩

def InstrumentMark.Stands (text : Text) (mark : InstrumentMark) : Prop :=
  ∃ middle last, InstrumentToken text mark.start middle last ∧
    mark = .between text mark.start middle last

section Instruments

variable {text : Text} {first middle middle' last last' cursor : Nat}

theorem InstrumentToken.unique (h : InstrumentToken text first middle last)
    (h' : InstrumentToken text first middle' last') : middle = middle' ∧ last = last' := by
  have hmiddle := (h.ats.unique h'.ats (Nat.le_refl _) h.ats.nonempty (Nat.le_refl _)
    h'.ats.nonempty).2
  subst hmiddle
  exact ⟨rfl, h.numeral.unique h'.numeral⟩

theorem InstrumentMark.Stands.at_sign {mark : InstrumentMark} (h : mark.Stands text) :
    text[mark.start]? = some '@' := by
  obtain ⟨middle, last, htoken, -⟩ := h
  obtain ⟨c, hc, hat⟩ := htoken.ats.inside mark.start (Nat.le_refl _) htoken.ats.nonempty
  rw [hc, of_decide_eq_true hat]

theorem instrumentMarks_run (h : Run (· = '@') text first middle) :
    instrumentMarks first (text.drop first) =
      match Numeral.leading (text.drop middle) with
      | some (numeral, _) =>
        ⟨first, middle - first, numeral⟩ ::
          instrumentMarks (middle + numeral.length) (text.drop (middle + numeral.length))
      | none => instrumentMarks middle (text.drop middle) := by
  have hpos := h.nonempty
  obtain ⟨c, hc, hat⟩ := h.inside first (Nat.le_refl _) hpos
  obtain rfl : c = '@' := of_decide_eq_true hat
  have htaken := h.taken (Nat.le_succ first) hpos
  have hlength : (text.extract (first + 1) middle).length = middle - (first + 1) :=
    htaken.length_eq
  have hats : middle - (first + 1) + 1 = middle - first := by omega
  have hmiddle : first + 1 + (middle - (first + 1)) = middle := by omega
  have hdrop (count : Nat) : (text.drop (first + 1)).drop (middle - (first + 1) + count) =
      text.drop (middle + count) := by
    rw [List.drop_drop]
    congr 1
    omega
  rw [Text.drop_of_getElem? hc, instrumentMarks, if_pos rfl]
  dsimp only
  rw [htaken.dropWhile_eq, htaken.takeWhile_eq, hlength]
  cases Numeral.leading (text.drop middle) with
  | none =>
    dsimp only
    have hzero := hdrop 0
    rw [Nat.add_zero, Nat.add_zero] at hzero
    rw [hzero]
    congr 1
    omega
  | some taken =>
    dsimp only [InstrumentMark.stop]
    rw [hdrop, hats]
    congr 2
    omega

theorem instrumentMarks_token (h : InstrumentToken text first middle last) :
    instrumentMarks first (text.drop first) =
      .between text first middle last :: instrumentMarks last (text.drop last) := by
  rw [instrumentMarks_run h.ats, h.numeral.leading_eq]
  have hlast : middle + (text.extract middle last).length = last := by
    rw [h.numeral.length_eq]
    have hlt := h.numeral.lt
    omega
  dsimp only
  rw [hlast]
  rfl

theorem InstrumentToken.at_free (h : InstrumentToken text first middle last) (place : Nat)
    (hmiddle : middle ≤ place) (hlast : place < last) : text[place]? ≠ some '@' := by
  intro hat
  obtain ⟨c, hc, hkinds⟩ := h.numeral.characters hmiddle hlast
  rw [hat] at hc
  cases hc
  revert hkinds
  decide

theorem InstrumentToken.edge_behind (h : InstrumentToken text first middle last) :
    Edge (· = '@') text last := by
  intro before c hbefore hc
  have hlt := h.numeral.lt
  have hne := h.at_free before (by omega) (by omega)
  rw [hc] at hne
  simpa using hne

/-- Whatever begins in a run of `at` signs begins where the run does. -/
theorem InstrumentMark.Stands.in_run {mark : InstrumentMark} (h : mark.Stands text)
    (hrun : Run (· = '@') text first middle) (hle : first ≤ mark.start)
    (hlt : mark.start < middle) :
    ∃ last, InstrumentToken text first middle last ∧ mark = .between text first middle last := by
  obtain ⟨other, last, htoken, hmark⟩ := h
  obtain ⟨hstart, rfl⟩ := htoken.ats.unique hrun (Nat.le_refl _) htoken.ats.nonempty hle hlt
  rw [hstart] at htoken hmark
  exact ⟨last, htoken, hmark⟩

theorem InstrumentToken.apart (h : InstrumentToken text first middle last)
    {mark : InstrumentMark} (hmark : mark.Stands text) (hle : first ≤ mark.start) :
    mark = .between text first middle last ∨ last ≤ mark.start := by
  by_cases hin : mark.start < middle
  · obtain ⟨last', htoken, heq⟩ := hmark.in_run h.ats hle hin
    rw [(h.unique htoken).2]
    exact .inl heq
  · by_cases hend : mark.start < last
    · exact absurd hmark.at_sign (h.at_free mark.start (by omega) hend)
    · exact .inr (by omega)

theorem bare_passed (hrun : Run (· = '@') text first middle)
    (hbare : ¬ Numeral.Begins text middle) {mark : InstrumentMark} (hmark : mark.Stands text)
    (hle : first ≤ mark.start) : middle ≤ mark.start := by
  by_cases hin : mark.start < middle
  · obtain ⟨last, htoken, -⟩ := hmark.in_run hrun hle hin
    exact absurd htoken.numeral.begins hbare
  · omega

theorem token_exists (hrun : Run (· = '@') text first middle)
    (hbegins : Numeral.Begins text middle) : ∃ last, InstrumentToken text first middle last := by
  have hpos := hrun.nonempty
  have hedge : Edge Text.isDecimalDigit text middle := by
    intro before c hbefore hc
    have heq := of_decide_eq_true (hrun.accepted (by omega) (by omega) hc)
    subst heq
    decide
  obtain ⟨last, hstands⟩ := hbegins.stands hedge
  exact ⟨last, hrun, hstands⟩

/-- The tokens from a place on. A run of `at` signs is not entered in its middle. -/
theorem instrumentMarks_scan (text : Text) (place : Nat)
    (hedge : text[place]? = some '@' → Edge (· = '@') text place) :
    Scan (InstrumentMark.Stands text) (·.start) place
      (instrumentMarks place (text.drop place)) := by
  cases hc : text[place]? with
  | none =>
    have hend := List.getElem?_eq_none_iff.1 hc
    rw [List.drop_eq_nil_of_le hend, instrumentMarks]
    refine .done place fun mark hmark => ?_
    have hlt := (List.getElem?_eq_some_iff.1 hmark.at_sign).1
    omega
  | some c =>
    have hlt := (List.getElem?_eq_some_iff.1 hc).1
    by_cases hat : c = '@'
    · subst hat
      obtain ⟨middle, hrun⟩ := Text.run_exists (hedge hc) hc (by decide)
      have hpos := hrun.nonempty
      by_cases hbegins : Numeral.Begins text middle
      · obtain ⟨last, htoken⟩ := token_exists hrun hbegins
        have hnumeral := htoken.numeral.lt
        rw [instrumentMarks_token htoken]
        exact .found place last _ _ ⟨middle, last, htoken, rfl⟩ rfl (by omega)
          (fun mark hmark hle => htoken.apart hmark hle)
          (instrumentMarks_scan text last fun _ => htoken.edge_behind)
      · rw [instrumentMarks_run hrun, Numeral.leading_eq_none hbegins]
        refine .pass place middle _ (by omega)
          (fun mark hmark hle => bare_passed hrun hbegins hmark hle)
          (instrumentMarks_scan text middle fun hmiddle => ?_)
        exact absurd (hrun.behind '@' hmiddle) (by decide)
    · rw [Text.drop_of_getElem? hc, instrumentMarks, if_neg hat]
      refine .pass place (place + 1) _ (by omega) (fun mark hmark hle => ?_)
        (instrumentMarks_scan text (place + 1) fun _ => ?_)
      · by_cases heq : mark.start = place
        · have hsign := hmark.at_sign
          rw [heq, hc] at hsign
          exact absurd (Option.some.inj hsign) hat
        · omega
      · rw [Text.edge_succ, hc]
        rintro d ⟨⟩
        simpa using hat
termination_by text.length - place

structure InstrumentSelected (text : Text) (cursor first middle last : Nat) : Prop where
  token : InstrumentToken text first middle last
  covered : Covered text cursor first last
  leftmost : ∀ other middle' last', InstrumentToken text other middle' last' →
    Covered text cursor other last' → first ≤ other

/-- What is read at a cursor: nothing where no token covers it, else the number of the
leftmost token. Every `at` sign behind the first is for a bank. A number out of bound and
a numeral without a value are refused. -/
inductive InstrumentReading (text : Text) (cursor : Nat) : Except Failure (Option Nat) → Prop
  | nothing :
      (∀ first middle last, InstrumentToken text first middle last →
        ¬ Covered text cursor first last) →
      InstrumentReading text cursor (.ok none)
  | number (first middle last value : Nat) :
      InstrumentSelected text cursor first middle last →
      Numeral.parse (text.extract middle last) = some value →
      (middle - first - 1) * 128 + value < 4294967296 →
      InstrumentReading text cursor (.ok (some ((middle - first - 1) * 128 + value)))
  | malformed (first middle last : Nat) :
      InstrumentSelected text cursor first middle last →
      (∀ value, Numeral.parse (text.extract middle last) = some value →
        4294967296 ≤ (middle - first - 1) * 128 + value) →
      InstrumentReading text cursor (.error (.malformedToken (text.extract first last)))

theorem InstrumentToken.stop_between (h : InstrumentToken text first middle last) :
    (InstrumentMark.between text first middle last).stop = last := by
  have hats := h.ats.nonempty
  have hnumeral := h.numeral.lt
  simp only [InstrumentMark.stop, InstrumentMark.between, h.numeral.length_eq]
  omega

theorem InstrumentToken.text_between (h : InstrumentToken text first middle last) :
    (InstrumentMark.between text first middle last).text = text.extract first last := by
  have hpos := h.ats.nonempty
  have htaken := h.ats.taken (Nat.le_refl _) (Nat.le_of_lt hpos)
  have hats : text.extract first middle = List.replicate (middle - first) '@' := by
    refine List.eq_replicate_iff.2 ⟨htaken.length_eq, fun c hc => ?_⟩
    rw [← htaken.takeWhile_eq] at hc
    exact of_decide_eq_true (List.all_eq_true.1 List.all_takeWhile c hc)
  rw [InstrumentMark.text, InstrumentMark.between, ← hats,
    Text.extract_append (Nat.le_of_lt hpos) (Nat.le_of_lt h.numeral.lt)]

theorem InstrumentToken.covers_iff (h : InstrumentToken text first middle last) :
    covers text cursor first (InstrumentMark.between text first middle last).stop = true ↔
      Covered text cursor first last := by
  rw [h.stop_between]
  exact Cursor.covers_iff text cursor first last

theorem leftmost_iff_selected (mark : InstrumentMark) :
    Leftmost (InstrumentMark.Stands text) (·.start)
        (fun mark => covers text cursor mark.start mark.stop) 0 mark ↔
      ∃ middle last, InstrumentSelected text cursor mark.start middle last ∧
        mark = .between text mark.start middle last := by
  constructor
  · intro h
    obtain ⟨middle, last, htoken, hmark⟩ := h.standing
    have hpasses := h.passes
    rw [hmark] at hpasses
    refine ⟨middle, last, ⟨htoken, htoken.covers_iff.1 hpasses, ?_⟩, hmark⟩
    intro other middle' last' ho hc
    exact h.first (.between text other middle' last') ⟨middle', last', ho, rfl⟩ (Nat.zero_le _)
      (ho.covers_iff.2 hc)
  · rintro ⟨middle, last, h, hmark⟩
    refine ⟨⟨middle, last, h.token, hmark⟩, Nat.zero_le _, ?_, ?_⟩
    · rw [hmark]
      exact h.token.covers_iff.2 h.covered
    · rintro other ⟨middle', last', ho, heq⟩ - hpasses
      rw [heq] at hpasses
      exact h.leftmost _ _ _ ho (ho.covers_iff.1 hpasses)

theorem instrument_selection (text : Text) (cursor : Nat) :
    (∀ first middle last, InstrumentToken text first middle last →
      ¬ Covered text cursor first last) ∨
    ∃ first middle last, InstrumentSelected text cursor first middle last := by
  have hscan := instrumentMarks_scan text 0 fun _ => Text.edge_zero _ text
  rcases hscan.selection fun mark => covers text cursor mark.start mark.stop with
    hnone | ⟨mark, hleft⟩
  · refine .inl fun first middle last htoken hcovered => ?_
    have hfalse := hnone (.between text first middle last) ⟨middle, last, htoken, rfl⟩
      (Nat.zero_le _)
    exact absurd (htoken.covers_iff.2 hcovered) (ne_true_of_eq_false hfalse)
  · obtain ⟨middle, last, h, -⟩ := (leftmost_iff_selected mark).1 hleft
    exact .inr ⟨_, _, _, h⟩

theorem instrumentAt_uncovered {column : Nat}
    (h : ∀ first middle last, InstrumentToken text first middle last →
      ¬ Covered text (min column text.length) first last) :
    instrumentAt text column = .ok none := by
  have hscan := instrumentMarks_scan text 0 fun _ => Text.edge_zero _ text
  have hnone : (instrumentMarks 0 text).find?
      (fun mark => covers text (place text column) mark.start mark.stop) = none := by
    refine hscan.find?_none_iff.2 fun mark hmark _ => eq_false_of_ne_true fun hpasses => ?_
    obtain ⟨middle, last, htoken, heq⟩ := hmark
    rw [heq] at hpasses
    exact h _ _ _ htoken (htoken.covers_iff.1 hpasses)
  simp only [instrumentAt, hnone]

theorem instrument_found {column : Nat}
    (h : InstrumentSelected text (min column text.length) first middle last) :
    (instrumentMarks 0 text).find?
        (fun mark => covers text (place text column) mark.start mark.stop) =
      some (.between text first middle last) := by
  have hscan := instrumentMarks_scan text 0 fun _ => Text.edge_zero _ text
  exact (hscan.find?_some_iff _).2 ((leftmost_iff_selected _).2 ⟨middle, last, h, rfl⟩)

theorem value_between (text : Text) (first middle last id : Nat) :
    (InstrumentMark.between text first middle last).value = some id ↔
      ∃ value, Numeral.parse (text.extract middle last) = some value ∧
        (middle - first - 1) * 128 + value < 4294967296 ∧
        (middle - first - 1) * 128 + value = id := by
  unfold InstrumentMark.value InstrumentMark.between
  cases Numeral.parse (text.extract middle last) with
  | none => simp
  | some number =>
    change (if (middle - first - 1) * 128 + number < 4294967296 then
      some ((middle - first - 1) * 128 + number) else none) = some id ↔ _
    by_cases hbound : (middle - first - 1) * 128 + number < 4294967296
    · simp [hbound]
    · simp [hbound]

theorem InstrumentReading.instrumentAt_eq {column : Nat} {result : Except Failure (Option Nat)}
    (h : InstrumentReading text (min column text.length) result) :
    instrumentAt text column = result := by
  cases h with
  | nothing hnone => exact instrumentAt_uncovered hnone
  | number first middle last value hselected hvalue hbound =>
    have hid := (value_between text first middle last _).2 ⟨value, hvalue, hbound, rfl⟩
    simp only [instrumentAt, instrument_found hselected, hid]
  | malformed first middle last hselected hrefused =>
    have hid : (InstrumentMark.between text first middle last).value = none := by
      refine Option.eq_none_iff_forall_ne_some.2 fun id hid => ?_
      obtain ⟨value, hvalue, hbound, -⟩ := (value_between _ _ _ _ _).1 hid
      have hover := hrefused value hvalue
      omega
    simp only [instrumentAt, instrument_found hselected, hid, hselected.token.text_between]

theorem instrumentReading_instrumentAt (text : Text) (column : Nat) :
    InstrumentReading text (min column text.length) (instrumentAt text column) := by
  rcases instrument_selection text (min column text.length) with
    hnone | ⟨first, middle, last, hselected⟩
  · rw [instrumentAt_uncovered hnone]
    exact .nothing hnone
  · simp only [instrumentAt, instrument_found hselected]
    cases hid : (InstrumentMark.between text first middle last).value with
    | some id =>
      obtain ⟨value, hvalue, hbound, rfl⟩ := (value_between _ _ _ _ _).1 hid
      exact .number first middle last value hselected hvalue hbound
    | none =>
      rw [hselected.token.text_between]
      refine .malformed first middle last hselected fun value hvalue => ?_
      refine Nat.not_lt.1 fun hbound => ?_
      rw [(value_between _ _ _ _ _).2 ⟨value, hvalue, hbound, rfl⟩] at hid
      cases hid

/-- The instrument number, or none, at every column of every line. -/
theorem instrumentAt_reads (text : Text) (column : Nat) (result : Except Failure (Option Nat)) :
    InstrumentReading text (min column text.length) result ↔
      instrumentAt text column = result := by
  constructor
  · exact InstrumentReading.instrumentAt_eq
  · rintro rfl
    exact instrumentReading_instrumentAt text column

-- two tokens meet at the cursor, and the left one is read
example : instrumentAt "A @@1@2".toList 5 = .ok (some 129) := by cbv

end Instruments

end MmlLookup.Cursor
