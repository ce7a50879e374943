import MmlLookup.Proofs.Segments

/-!
# What an escape hides

A bar escapes the exclamation mark behind it. Marks are tested for the escape only where a
segment begins, and a segment goes on to the end of its word. So a mark in force, further on
in a word whose first mark is escaped, is hidden with it. No other mark in force is.
-/

set_option autoImplicit false

namespace MmlLookup.Cursor

open Text (Run)

/-- An exclamation mark with a blank before it, no bar just before it, and something of its
word behind it. -/
structure InForce (text : Text) (place : Nat) : Prop where
  mark : text[place]? = some '!'
  unescaped : Unescaped text place
  blank : ∃ earlier c, earlier < place ∧ text[earlier]? = some c ∧ Text.isBlank c = true
  room : ∃ c, text[place + 1]? = some c ∧ Text.isBlank c = false

/-- The first mark of the word that the place is in stands before the place, behind a bar. -/
def Swallowed (text : Text) (place : Nat) : Prop :=
  ∃ opening first last, VariableSegment text opening first last ∧ first < place ∧ place < last ∧
    ∃ before, before + 1 = first ∧ text[before]? = some '|'

section Escapes

variable {text : Text} {opening first last place : Nat}

theorem segment_around (hmark : text[place]? = some '!')
    (hroom : Text.word (text.drop (place + 1)) ≠ []) :
    ∃ opening first last, VariableSegment text opening first last ∧ first ≤ place ∧
      place < last := by
  induction place using Nat.strongRecOn with
  | ind place ih =>
    by_cases hearlier : ∃ before opening last, before < place ∧ text[before]? = some '!' ∧
        Run (fun c => !Text.isBlank c) text opening last ∧ opening ≤ before ∧ place < last
    · -- an earlier mark of the word is in the segment too
      obtain ⟨before, opening, last, hbefore, hother, hword, hopening, hlast⟩ := hearlier
      obtain ⟨c, hc, hinside⟩ := hword.inside (before + 1) (by omega) (by omega)
      have hbehind := (word_ne_nil_iff text (before + 1)).2 ⟨c, hc, by simpa using hinside⟩
      obtain ⟨opening', first, last', hsegment, hfirst, hlast'⟩ := ih before hbefore hother hbehind
      have hle := hsegment.opening_le
      obtain ⟨-, rfl⟩ := hsegment.word.unique hword (by omega) hlast' hopening (by omega)
      exact ⟨opening', first, last', hsegment, by omega, hlast⟩
    · have hunmarked : Unmarked text place := by
        intro opening last hword hlast before hopening hbefore hother
        exact hearlier ⟨before, opening, last, hbefore, hother, hword, hopening, hlast⟩
      obtain ⟨opening, last, hsegment⟩ := segment_exists hmark hroom hunmarked
      have hlast := hsegment.room
      exact ⟨opening, place, last, hsegment, Nat.le_refl _, by omega⟩

theorem InForce.segment (h : InForce text place) :
    ∃ opening first last, VariableSegment text opening first last ∧ first ≤ place ∧
      place < last :=
  segment_around h.mark ((word_ne_nil_iff text (place + 1)).2 h.room)

theorem InForce.covered (h : InForce text place)
    (hsegment : VariableSegment text opening first last) (hfirst : first ≤ place)
    (hlast : place < last) : Covered text place first last := by
  obtain ⟨earlier, c, hearlier, hc, hblank⟩ := h.blank
  have hopening := hsegment.opening_le
  refine ⟨⟨earlier, c, ?_, hc, hblank⟩, hfirst, Nat.le_of_lt hlast⟩
  -- the blank is not in the word
  refine Nat.lt_of_not_le fun hle => ?_
  have hafter : opening ≤ earlier := by omega
  have hbefore : earlier < last := by omega
  have hinside := hsegment.word.accepted hafter hbefore hc
  simp [hblank] at hinside

theorem VariableSegment.only (h : VariableSegment text opening first last) (hfirst : first ≤ place)
    (hlast : place < last) (hmark : text[place]? = some '!') {opening' first' last' : Nat}
    (h' : VariableSegment text opening' first' last') (hcovered : Covered text place first' last') :
    first' = first := by
  have hfirst' := hcovered.first_le
  have hlast' : place < last' := by
    refine Nat.lt_of_le_of_ne hcovered.le_last ?_
    rintro rfl
    exact absurd (h'.word.behind '!' hmark) (by decide)
  rcases Nat.le_total first first' with hle | hle
  · exact (h.unique h' hle (by omega)).2.1.symm
  · exact (h'.unique h hle (by omega)).2.1

theorem not_unescaped_of_bar {before : Nat} (hbefore : before + 1 = place)
    (hbar : text[before]? = some '|') : ¬ Unescaped text place := by
  rintro ⟨other, c, hother, hc, hne⟩
  obtain rfl : other = before := by omega
  rw [hbar] at hc
  cases hc
  exact hne rfl

theorem bar_of_not_unescaped (h : ¬ Unescaped text (place + 1)) (hlt : place < text.length) :
    text[place]? = some '|' := by
  have hc : text[place]? = some text[place] := List.getElem?_eq_getElem hlt
  refine Classical.byContradiction fun hne => h ⟨place, text[place], rfl, hc, fun hbar => ?_⟩
  rw [hc, hbar] at hne
  exact hne rfl

theorem Swallowed.variableAt_eq (h : Swallowed text place) (hmark : text[place]? = some '!') :
    variableAt text place = .ok none := by
  have hlt := (List.getElem?_eq_some_iff.1 hmark).1
  obtain ⟨opening, first, last, hsegment, hfirst, hlast, before, hbefore, hbar⟩ := h
  refine variableAt_unselected fun opening' first' last' hother hcovered => ?_
  rw [Nat.min_eq_left (Nat.le_of_lt hlt)] at hcovered
  rw [hsegment.only (Nat.le_of_lt hfirst) hlast hmark hother hcovered]
  exact not_unescaped_of_bar hbefore hbar

/-- A mark in force is no reference exactly where the escape of an earlier mark hides it. -/
theorem variableAt_hidden_iff (text : Text) (place : Nat) (h : InForce text place) :
    variableAt text place = .ok none ↔ Swallowed text place := by
  refine ⟨fun hnone => ?_, fun hswallowed => hswallowed.variableAt_eq h.mark⟩
  have hlt := (List.getElem?_eq_some_iff.1 h.mark).1
  have hreading := variableReading_variableAt text place
  rw [hnone, Nat.min_eq_left (Nat.le_of_lt hlt)] at hreading
  cases hreading with
  | nothing hnothing =>
    obtain ⟨opening, first, last, hsegment, hfirst, hlast⟩ := h.segment
    have hcovered := h.covered hsegment hfirst hlast
    have hescaped := hnothing opening first last hsegment hcovered
    obtain ⟨earlier, -, hearlier, -, -⟩ := hcovered.blank
    obtain ⟨before, rfl⟩ : ∃ before, first = before + 1 := ⟨first - 1, by omega⟩
    refine ⟨opening, before + 1, last, hsegment, ?_, hlast, before, rfl,
      bar_of_not_unescaped hescaped (by omega)⟩
    refine Nat.lt_of_le_of_ne hfirst ?_
    rintro rfl
    exact hescaped h.unescaped

/-- A mark is read in a word of its own, whatever stands escaped in the word before. -/
theorem variableAt_hidden_apart : InForce "A |!x !y".toList 6 ∧
    ¬ Swallowed "A |!x !y".toList 6 ∧ variableAt "A |!x !y".toList 6 ≠ .ok none := by
  have hforce : InForce "A |!x !y".toList 6 :=
    ⟨rfl, ⟨5, ' ', rfl, rfl, by decide⟩, ⟨1, ' ', by decide, rfl, rfl⟩, ⟨'y', rfl, rfl⟩⟩
  have hapart : ¬ Swallowed "A |!x !y".toList 6 := by
    rintro ⟨opening, first, last, hsegment, hfirst, hlast, -⟩
    have hopening := hsegment.opening_le
    have hinside := hsegment.word.accepted (show opening ≤ 5 by omega) (by omega) rfl
    exact absurd hinside (by decide)
  exact ⟨hforce, hapart, fun hnone =>
    hapart ((variableAt_hidden_iff "A |!x !y".toList 6 hforce).1 hnone)⟩

theorem swallowed_joined : Swallowed "A |!x!y".toList 5 := by
  have hblank : ∀ c, "A ".toList.getLast? = some c → (!Text.isBlank c) = false := by
    rintro c ⟨⟩
    decide
  have hcharacters : ("|!x!y".toList.all fun c => !Text.isBlank c) = true := by decide
  have hword : Run (fun c => !Text.isBlank c) "A |!x!y".toList 2 7 :=
    Text.run_behind "A ".toList "|!x!y".toList hblank (by decide) (List.all_eq_true.1 hcharacters)
  have hsegment : VariableSegment "A |!x!y".toList 2 3 7 := by
    refine ⟨hword, by decide, rfl, fun place hopening hfirst => ?_, by decide⟩
    obtain rfl : place = 2 := by omega
    decide
  exact ⟨2, 3, 7, hsegment, by decide, by decide, 2, rfl, rfl⟩

/-- Not every mark in force is read: in the word `|!x!y` the second mark is hidden. -/
theorem inForce_unread : ¬ ∀ text place, InForce text place → variableAt text place ≠ .ok none := by
  intro h
  have hforce : InForce "A |!x!y".toList 5 :=
    ⟨rfl, ⟨4, 'x', rfl, rfl, by decide⟩, ⟨1, ' ', by decide, rfl, rfl⟩, ⟨'y', rfl, rfl⟩⟩
  exact h _ _ hforce (swallowed_joined.variableAt_eq rfl)

end Escapes

end MmlLookup.Cursor
