import MmlLookup.Proofs.Marks

/-!
# The variable under a cursor, by places

Each word of a line has at most one variable segment, from its first exclamation mark to
the word's end, which it has if some character follows the mark. The segment under the
cursor is the leftmost that covers it, with a blank somewhere before and no bar just
before. What it names is the numeral its body begins with, or else its body.
-/

set_option autoImplicit false

namespace MmlLookup.Cursor

open Text (Run)

/-- A word from place `opening` up to place `last`, with its first exclamation mark at
place `first` and something behind the mark. -/
structure VariableSegment (text : Text) (opening first last : Nat) : Prop where
  word : Run (fun c => !Text.isBlank c) text opening last
  opening_le : opening ≤ first
  mark : text[first]? = some '!'
  unmarked : ∀ place, opening ≤ place → place < first → text[place]? ≠ some '!'
  room : first + 1 < last

def VariableMark.between (text : Text) (first last : Nat) : VariableMark :=
  ⟨first, text.extract (first + 1) last⟩

def VariableMark.Stands (text : Text) (mark : VariableMark) : Prop :=
  ∃ opening last, VariableSegment text opening mark.start last ∧
    mark = .between text mark.start last

def Unmarked (text : Text) (place : Nat) : Prop :=
  ∀ opening last, Run (fun c => !Text.isBlank c) text opening last → place < last →
    ∀ before, opening ≤ before → before < place → text[before]? ≠ some '!'

section Variables

variable {text : Text} {opening opening' first first' last last' place cursor : Nat} {c : Char}

theorem VariableSegment.body_taken (h : VariableSegment text opening first last) :
    Text.Taken (fun c => !Text.isBlank c) text (first + 1) last := by
  have hopening := h.opening_le
  exact h.word.taken (by omega) (Nat.le_of_lt h.room)

theorem VariableSegment.unique (h : VariableSegment text opening first last)
    (h' : VariableSegment text opening' first' last') (hfirst : first ≤ first')
    (hlast : first' < last) : opening = opening' ∧ first = first' ∧ last = last' := by
  have hopening := h.opening_le
  have hopening' := h'.opening_le
  have hroom' := h'.room
  obtain ⟨rfl, rfl⟩ := h.word.unique h'.word (by omega) hlast hopening' (by omega)
  refine ⟨rfl, ?_, rfl⟩
  by_cases hlt : first < first'
  · exact absurd h.mark (h'.unmarked first hopening hlt)
  · omega

theorem word_ne_nil_iff (text : Text) (place : Nat) :
    Text.word (text.drop place) ≠ [] ↔ ∃ c, text[place]? = some c ∧ Text.isBlank c = false := by
  unfold Text.word
  cases hc : text[place]? with
  | none => simp [List.drop_eq_nil_of_le (List.getElem?_eq_none_iff.1 hc)]
  | some c =>
    rw [Text.drop_of_getElem? hc]
    by_cases hblank : Text.isBlank c = true
    · simp [hblank]
    · simp [hblank]

theorem segment_exists (hmark : text[place]? = some '!')
    (hroom : Text.word (text.drop (place + 1)) ≠ []) (hunmarked : Unmarked text place) :
    ∃ opening last, VariableSegment text opening place last := by
  have hinside : (!Text.isBlank '!') = true := by decide
  obtain ⟨opening, last, hword, hopening, hlast⟩ :
      ∃ opening last, Run (fun c => !Text.isBlank c) text opening last ∧
        opening ≤ place ∧ place < last := Text.run_around hmark hinside
  refine ⟨opening, last, hword, hopening, hmark, hunmarked opening last hword hlast, ?_⟩
  obtain ⟨d, hd, hblank⟩ := (word_ne_nil_iff text (place + 1)).1 hroom
  by_cases hend : last = place + 1
  · have hrefused := hword.behind d (hend ▸ hd)
    simp [hblank] at hrefused
  · omega

theorem VariableSegment.word_ne_nil (h : VariableSegment text opening first last) :
    Text.word (text.drop (first + 1)) ≠ [] := by
  have hopening := h.opening_le
  obtain ⟨c, hc, hword⟩ := h.word.inside (first + 1) (by omega) h.room
  exact (word_ne_nil_iff _ _).2 ⟨c, hc, by simpa using hword⟩

theorem unmarked_zero (text : Text) : Unmarked text 0 := by
  intro opening last hword hlast before hopening hbefore
  omega

theorem VariableSegment.unmarked_behind (h : VariableSegment text opening first last) :
    Unmarked text last := by
  intro opening' last' hword hlast before hopening hbefore
  obtain ⟨c, hc, hinside⟩ := hword.inside last (by omega) hlast
  rw [h.word.behind c hc] at hinside
  cases hinside

theorem Unmarked.succ (h : Unmarked text place)
    (hpassed : text[place]? = some '!' → Text.word (text.drop (place + 1)) = []) :
    Unmarked text (place + 1) := by
  intro opening last hword hlast before hopening hbefore
  by_cases heq : before = place
  · subst heq
    intro hmark
    obtain ⟨c, hc, hinside⟩ := hword.inside (before + 1) (by omega) hlast
    have hroom := (word_ne_nil_iff text (before + 1)).2 ⟨c, hc, by simpa using hinside⟩
    exact hroom (hpassed hmark)
  · exact h opening last hword (by omega) before hopening (by omega)

theorem variableMarks_segment (h : VariableSegment text opening first last) :
    variableMarks first (text.drop first) =
      .between text first last :: variableMarks last (text.drop last) := by
  have hroom := h.room
  have hbody : Text.word (text.drop (first + 1)) = text.extract (first + 1) last :=
    h.body_taken.takeWhile_eq
  have hlength := h.body_taken.length_eq
  have hlast : first + 1 + (last - (first + 1)) = last := by omega
  rw [Text.drop_of_getElem? h.mark, variableMarks, if_pos ⟨rfl, h.word_ne_nil⟩]
  dsimp only [VariableMark.stop]
  rw [hbody, hlength, List.drop_drop, hlast]
  rfl

theorem variableMarks_scan (text : Text) (place : Nat) (hunmarked : Unmarked text place) :
    Scan (VariableMark.Stands text) (·.start) place (variableMarks place (text.drop place)) := by
  cases hc : text[place]? with
  | none =>
    have hend := List.getElem?_eq_none_iff.1 hc
    rw [List.drop_eq_nil_of_le hend, variableMarks]
    refine .done place fun mark hmark => ?_
    obtain ⟨opening, last, hsegment, -⟩ := hmark
    have hlt := (List.getElem?_eq_some_iff.1 hsegment.mark).1
    omega
  | some c =>
    have hlt := (List.getElem?_eq_some_iff.1 hc).1
    by_cases hbegins : c = '!' ∧ Text.word (text.drop (place + 1)) ≠ []
    · obtain ⟨rfl, hroom⟩ := hbegins
      obtain ⟨opening, last, hsegment⟩ := segment_exists hc hroom hunmarked
      have hlast := hsegment.room
      rw [variableMarks_segment hsegment]
      refine .found place last _ _ ⟨opening, last, hsegment, rfl⟩ rfl (by omega) ?_
        (variableMarks_scan text last hsegment.unmarked_behind)
      rintro mark ⟨opening', last', hother, hmark⟩ hle
      by_cases hin : mark.start < last
      · obtain ⟨-, hstart, rfl⟩ := hsegment.unique hother hle hin
        rw [hstart]
        exact .inl hmark
      · exact .inr (by omega)
    · rw [Text.drop_of_getElem? hc, variableMarks, if_neg hbegins]
      refine .pass place (place + 1) _ (by omega) ?_
        (variableMarks_scan text (place + 1) (hunmarked.succ fun hmark => ?_))
      · rintro mark ⟨opening, last, hsegment, -⟩ hle
        by_cases heq : mark.start = place
        · rw [heq] at hsegment
          have hmark := hsegment.mark
          rw [hc] at hmark
          exact absurd ⟨Option.some.inj hmark, hsegment.word_ne_nil⟩ hbegins
        · omega
      · rw [hc] at hmark
        exact Classical.not_not.1 fun hroom => hbegins ⟨Option.some.inj hmark, hroom⟩
termination_by text.length - place

/-! ## The segment under a cursor -/

def Unescaped (text : Text) (place : Nat) : Prop :=
  ∃ before c, before + 1 = place ∧ text[before]? = some c ∧ c ≠ '|'

structure VariableSelected (text : Text) (cursor first last : Nat) : Prop where
  segment : ∃ opening, VariableSegment text opening first last
  covered : Covered text cursor first last
  unescaped : Unescaped text first
  leftmost : ∀ opening other last', VariableSegment text opening other last' →
    Covered text cursor other last' → Unescaped text other → first ≤ other

/-- What is read at a cursor: nothing where no segment is selected, else what the segment's
body names. A body that begins with a decimal digit, or with a dollar sign and a hexadecimal
digit, is read up to where its digits end, and refused if these have no value. -/
inductive VariableReading (text : Text) (cursor : Nat) : Except Failure (Option Token) → Prop
  | nothing :
      (∀ opening first last, VariableSegment text opening first last →
        Covered text cursor first last → ¬ Unescaped text first) →
      VariableReading text cursor (.ok none)
  | name (first last : Nat) :
      VariableSelected text cursor first last →
      ¬ Numeral.Begins (text.extract (first + 1) last) 0 →
      VariableReading text cursor (.ok (some (.named (text.extract (first + 1) last))))
  | number (first last stop value : Nat) :
      VariableSelected text cursor first last →
      Numeral.Stands (text.extract (first + 1) last) 0 stop →
      Numeral.parse ((text.extract (first + 1) last).take stop) = some value →
      VariableReading text cursor (.ok (some (.numeric value)))
  | malformed (first last stop : Nat) :
      VariableSelected text cursor first last →
      Numeral.Stands (text.extract (first + 1) last) 0 stop →
      Numeral.parse ((text.extract (first + 1) last).take stop) = none →
      VariableReading text cursor (.error (.malformedToken (text.extract first last)))

theorem VariableSegment.stop_between (h : VariableSegment text opening first last) :
    (VariableMark.between text first last).stop = last := by
  have hroom := h.room
  simp only [VariableMark.stop, VariableMark.between, h.body_taken.length_eq]
  omega

theorem VariableSegment.text_between (h : VariableSegment text opening first last) :
    (VariableMark.between text first last).text = text.extract first last := by
  have hroom := h.room
  have hcount : last - first = last - (first + 1) + 1 := by omega
  simp only [VariableMark.text, VariableMark.between, List.extract]
  rw [Text.drop_of_getElem? h.mark, hcount, List.take_succ_cons]

theorem escaped_iff (hc : text[place]? = some c) (body : Text) :
    VariableMark.isEscaped text ⟨place + 1, body⟩ = true ↔ c = '|' := by
  simp [VariableMark.isEscaped, List.getLast?_take, hc]

theorem selects_iff (h : VariableSegment text opening first last) :
    (!(VariableMark.between text first last).isEscaped text &&
        covers text cursor first (VariableMark.between text first last).stop) = true ↔
      Covered text cursor first last ∧ Unescaped text first := by
  rw [Bool.and_eq_true, h.stop_between, covers_iff, and_comm]
  refine and_congr_right fun hcovered => ?_
  -- a blank comes before the segment, so that there is a character just before it
  obtain ⟨blank, -, hblank, -, -⟩ := hcovered.blank
  obtain ⟨before, rfl⟩ : ∃ before, first = before + 1 := ⟨first - 1, by omega⟩
  have hlt := (List.getElem?_eq_some_iff.1 h.mark).1
  have hc : text[before]? = some text[before] := List.getElem?_eq_getElem (by omega)
  have hescaped := escaped_iff hc (text.extract (before + 1 + 1) last)
  unfold VariableMark.between
  constructor
  · intro hplain
    refine ⟨before, _, rfl, hc, fun hbar => ?_⟩
    rw [hescaped.2 hbar] at hplain
    cases hplain
  · rintro ⟨other, d, hother, hd, hne⟩
    obtain rfl : other = before := by omega
    rw [hc] at hd
    cases hd
    rw [eq_false_of_ne_true fun hbar => hne (hescaped.1 hbar)]
    rfl

theorem leftmost_iff_segment (mark : VariableMark) :
    Leftmost (VariableMark.Stands text) (·.start)
        (fun mark => !mark.isEscaped text && covers text cursor mark.start mark.stop) 0 mark ↔
      ∃ last, VariableSelected text cursor mark.start last ∧
        mark = .between text mark.start last := by
  constructor
  · intro h
    obtain ⟨opening, last, hsegment, hmark⟩ := h.standing
    have hpasses := h.passes
    rw [hmark] at hpasses
    obtain ⟨hcovered, hplain⟩ := (selects_iff hsegment).1 hpasses
    refine ⟨last, ⟨⟨opening, hsegment⟩, hcovered, hplain, ?_⟩, hmark⟩
    intro opening' other last' ho hc hp
    exact h.first (.between text other last') ⟨opening', last', ho, rfl⟩ (Nat.zero_le _)
      ((selects_iff ho).2 ⟨hc, hp⟩)
  · rintro ⟨last, h, hmark⟩
    obtain ⟨opening, hsegment⟩ := h.segment
    refine ⟨⟨opening, last, hsegment, hmark⟩, Nat.zero_le _, ?_, ?_⟩
    · rw [hmark]
      exact (selects_iff hsegment).2 ⟨h.covered, h.unescaped⟩
    · rintro other ⟨opening', last', ho, heq⟩ - hpasses
      rw [heq] at hpasses
      obtain ⟨hc, hp⟩ := (selects_iff ho).1 hpasses
      exact h.leftmost _ _ _ ho hc hp

theorem variable_selection (text : Text) (cursor : Nat) :
    (∀ opening first last, VariableSegment text opening first last →
      Covered text cursor first last → ¬ Unescaped text first) ∨
    ∃ first last, VariableSelected text cursor first last := by
  have hscan := variableMarks_scan text 0 (unmarked_zero text)
  rcases hscan.selection fun mark =>
      !mark.isEscaped text && covers text cursor mark.start mark.stop with hnone | ⟨mark, hleft⟩
  · refine .inl fun opening first last hsegment hcovered hplain => ?_
    have hfalse := hnone (.between text first last) ⟨opening, last, hsegment, rfl⟩ (Nat.zero_le _)
    exact absurd ((selects_iff hsegment).2 ⟨hcovered, hplain⟩) (ne_true_of_eq_false hfalse)
  · obtain ⟨last, h, -⟩ := (leftmost_iff_segment mark).1 hleft
    exact .inr ⟨_, _, h⟩

theorem variableAt_unselected {column : Nat}
    (h : ∀ opening first last, VariableSegment text opening first last →
      Covered text (min column text.length) first last → ¬ Unescaped text first) :
    variableAt text column = .ok none := by
  have hscan := variableMarks_scan text 0 (unmarked_zero text)
  have hnone : (variableMarks 0 text).find? (fun mark =>
      !mark.isEscaped text && covers text (Cursor.place text column) mark.start mark.stop) =
        none := by
    refine hscan.find?_none_iff.2 fun mark hmark _ => eq_false_of_ne_true fun hpasses => ?_
    obtain ⟨opening, last, hsegment, heq⟩ := hmark
    rw [heq] at hpasses
    obtain ⟨hcovered, hplain⟩ := (selects_iff hsegment).1 hpasses
    exact h _ _ _ hsegment hcovered hplain
  simp only [variableAt, hnone]

theorem variableAt_selected {column : Nat}
    (h : VariableSelected text (min column text.length) first last) :
    variableAt text column = (VariableMark.between text first last).token.map some := by
  have hscan := variableMarks_scan text 0 (unmarked_zero text)
  have hfound : (variableMarks 0 text).find? (fun mark =>
      !mark.isEscaped text && covers text (Cursor.place text column) mark.start mark.stop) =
        some (.between text first last) :=
    (hscan.find?_some_iff _).2 ((leftmost_iff_segment _).2 ⟨last, h, rfl⟩)
  simp only [variableAt, hfound]

theorem token_name {mark : VariableMark} (h : ¬ Numeral.Begins mark.body 0) :
    mark.token = .ok (.named mark.body) := by
  have hleading := Numeral.leading_eq_none h
  rw [List.drop_zero] at hleading
  rw [VariableMark.token, hleading]

theorem token_numeral {mark : VariableMark} {stop : Nat} (h : Numeral.Stands mark.body 0 stop) :
    mark.token =
      match Numeral.parse (mark.body.take stop) with
      | some value => .ok (.numeric value)
      | none => .error (.malformedToken mark.text) := by
  have hleading := h.leading_eq
  rw [List.drop_zero] at hleading
  rw [VariableMark.token, hleading]
  rfl

theorem VariableReading.variableAt_eq {column : Nat} {result : Except Failure (Option Token)}
    (h : VariableReading text (min column text.length) result) :
    variableAt text column = result := by
  cases h with
  | nothing hnone => exact variableAt_unselected hnone
  | name first last hselected hname =>
    rw [variableAt_selected hselected, token_name hname]
    rfl
  | number first last stop value hselected hstands hvalue =>
    rw [variableAt_selected hselected, token_numeral hstands, VariableMark.between, hvalue]
    rfl
  | malformed first last stop hselected hstands hvalue =>
    obtain ⟨opening, hsegment⟩ := hselected.segment
    rw [variableAt_selected hselected, token_numeral hstands, hsegment.text_between,
      VariableMark.between, hvalue]
    rfl

theorem variableReading_variableAt (text : Text) (column : Nat) :
    VariableReading text (min column text.length) (variableAt text column) := by
  rcases variable_selection text (min column text.length) with hnone | ⟨first, last, hselected⟩
  · rw [variableAt_unselected hnone]
    exact .nothing hnone
  · rw [variableAt_selected hselected]
    by_cases hbegins : Numeral.Begins (text.extract (first + 1) last) 0
    · obtain ⟨stop, hstands⟩ := hbegins.stands (Text.edge_zero _ _)
      rw [token_numeral hstands]
      cases hvalue : Numeral.parse ((VariableMark.between text first last).body.take stop) with
      | some value => exact .number first last stop value hselected hstands hvalue
      | none =>
        obtain ⟨opening, hsegment⟩ := hselected.segment
        rw [hsegment.text_between]
        exact .malformed first last stop hselected hstands hvalue
    · rw [token_name hbegins]
      exact .name first last hselected hbegins

/-- The variable token, or none, at every column of every line. -/
theorem variableAt_reads (text : Text) (column : Nat) (result : Except Failure (Option Token)) :
    VariableReading text (min column text.length) result ↔ variableAt text column = result := by
  constructor
  · exact VariableReading.variableAt_eq
  · rintro rfl
    exact variableReading_variableAt text column

-- a bar takes the whole rest of the word away
example : variableAt "A |!x!y".toList 5 = .ok none := by cbv

end Variables

end MmlLookup.Cursor
