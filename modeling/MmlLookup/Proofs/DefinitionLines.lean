import MmlLookup.Instrument
import MmlLookup.Proofs.Gaps
import MmlLookup.Proofs.Numerals

/-!
# Lines that define an instrument

A definition line is an `at` sign, blanks, a digit run, a gap and the text that is shown.
Where nothing follows the gap, its last blank is the text, if another one is left to part
it from the digits. The digits are compared with the decimal spelling of a number once
their leading zeros are gone, and that agrees with their value as a numeral. So a line
defines at most one instrument.
-/

set_option autoImplicit false

namespace MmlLookup.Instrument

open Text (Longest)

structure Parted (line digits gap rest : Text) : Prop where
  joined : ∃ blanks, (∀ c ∈ blanks, Text.isBlank c = true) ∧
    line = '@' :: (blanks ++ (digits ++ (gap ++ rest)))
  digits_ne_nil : digits ≠ []
  digits : Longest Text.isDecimalDigit digits (gap ++ rest)
  gap_ne_nil : gap ≠ []
  gap : Longest Text.isBlank gap rest

/-- The text of a definition line: what follows the gap, or the gap's last blank where
nothing does and the gap has another. -/
inductive Shown (gap rest : Text) : Text → Prop
  | rest : rest ≠ [] → Shown gap rest rest
  | blank (kept : Text) (blank : Char) : rest = [] → kept ≠ [] → gap = kept ++ [blank] →
      Shown gap rest [blank]

/-- The line defines the instrument whose number its digits have as their value. -/
def Defines (line : Text) (id : Nat) (text : Text) : Prop :=
  ∃ digits gap rest, Parted line digits gap rest ∧ Numeral.parse digits = some id ∧
    Shown gap rest text

section Reading

variable {line digits gap rest text : Text}

/-- The reader behind the gap is handed back a blank only where nothing follows. -/
theorem afterBlanks_restOfLine (hgap : Longest Text.isBlank gap rest)
    (hline : '\n' ∉ gap ++ rest) :
    Text.afterBlanks Text.restOfLine (gap ++ rest) = some text ↔
      gap ≠ [] ∧ Shown gap rest text := by
  have hrest : '\n' ∉ rest := fun hmem => hline (List.mem_append_right gap hmem)
  have hblank (kept : Text) (blank : Char) (hcut : gap = kept ++ [blank]) :
      '\n' ∉ blank :: rest := Text.line_behind hcut hline
  have hlast : Text.LastEnough Text.restOfLine gap rest := by
    intro kept back blank hcut hnone
    rw [← List.append_assoc] at hcut
    have hread := (Text.restOfLine_some_iff (hblank _ _ hcut) _).2 ⟨by simp, rfl⟩
    rw [hnone] at hread
    cases hread
  rw [Text.afterBlanks_handed_iff hgap hlast]
  refine and_congr_right fun _ => ?_
  constructor
  · rintro (hread | ⟨hnone, kept, blank, hkept, hcut, hread⟩)
    · obtain ⟨hne, rfl⟩ := (Text.restOfLine_some_iff hrest text).1 hread
      exact .rest hne
    · have hnil : rest = [] := Classical.byContradiction fun hne => by
        rw [(Text.restOfLine_some_iff hrest rest).2 ⟨hne, rfl⟩] at hnone
        cases hnone
      obtain ⟨-, rfl⟩ := (Text.restOfLine_some_iff (hblank _ _ hcut) text).1 hread
      subst hnil
      exact .blank kept blank rfl hkept hcut
  · intro h
    cases h with
    | rest hne => exact .inl ((Text.restOfLine_some_iff hrest _).2 ⟨hne, rfl⟩)
    | blank kept blank hnil hkept hcut =>
      subst hnil
      exact .inr ⟨rfl, kept, blank, hkept, hcut,
        (Text.restOfLine_some_iff (hblank _ _ hcut) _).2 ⟨by simp, rfl⟩⟩

theorem definitionParts_iff (hline : '\n' ∉ line) :
    definitionParts line = some (digits, text) ↔
      ∃ gap rest, Parted line digits gap rest ∧ Shown gap rest text := by
  constructor
  · intro h
    unfold definitionParts at h
    split at h
    · rename_i tail
      obtain ⟨blanks, trimmed, rfl, hblanks⟩ := Text.longest_exists Text.isBlank tail
      rw [Text.trimStart, hblanks.dropWhile_eq] at h
      split at h
      · rename_i run behind hrun
        obtain ⟨rfl, hne, hdigits⟩ := Text.leadingRun_some_iff.1 hrun
        obtain ⟨gap, rest, rfl, hgap⟩ := Text.longest_exists Text.isBlank behind
        obtain ⟨shown, hread, heq⟩ := Option.map_eq_some_iff.1 h
        cases heq
        have hbehind : '\n' ∉ gap ++ rest := fun hmem => hline
          (List.mem_cons_of_mem _ (List.mem_append_right _ (List.mem_append_right _ hmem)))
        obtain ⟨hgapne, hshown⟩ := (afterBlanks_restOfLine hgap hbehind).1 hread
        exact ⟨gap, rest, ⟨⟨blanks, hblanks.inside, rfl⟩, hne, hdigits, hgapne, hgap⟩, hshown⟩
      · cases h
    · cases h
  · rintro ⟨gap, rest, ⟨⟨blanks, hblanks, rfl⟩, hne, hdigits, hgapne, hgap⟩, hshown⟩
    -- a digit ends the blanks in front of it
    have hfront : Longest Text.isBlank blanks (digits ++ (gap ++ rest)) := by
      refine ⟨hblanks, fun c hc => ?_⟩
      cases digits with
      | nil => exact absurd rfl hne
      | cons d digits =>
        cases hc
        exact Numeral.digits_word hdigits.inside c (by simp)
    have hbehind : '\n' ∉ gap ++ rest := fun hmem => hline
      (List.mem_cons_of_mem _ (List.mem_append_right _ (List.mem_append_right _ hmem)))
    have hread := (afterBlanks_restOfLine hgap hbehind).2 ⟨hgapne, hshown⟩
    have hrun := Text.leadingRun_some_iff.2 ⟨rfl, hne, hdigits⟩
    rw [definitionParts, Text.trimStart, hfront.dropWhile_eq, hrun]
    dsimp only
    rw [hread]
    rfl

end Reading

/-! ## Digits and numbers -/

section Numbers

variable {digits : Text} {id other : Nat}

theorem dropWhile_zeros (digits : Text) : (digits.dropWhile (· = '0')).head? ≠ some '0' := by
  intro hzero
  have hrefused := List.head?_dropWhile_not (fun c => decide (c = '0')) digits
  rw [hzero] at hrefused
  cases hrefused

theorem spells_eq (digits : Text) (id : Nat) : spells digits id = true ↔
    digits.dropWhile (· = '0') = if id = 0 then [] else Text.decimal id := by
  unfold spells
  by_cases hid : id = 0
  · simp [hid]
  · simp [hid]

/-- The comparison of spellings is the comparison of values. -/
theorem spells_iff (hne : digits ≠ []) (hdigits : ∀ c ∈ digits, Text.isDecimalDigit c = true)
    (hbound : id < Numeral.bound) :
    spells digits id = true ↔ Numeral.parse digits = some id := by
  have hzero := dropWhile_zeros digits
  rw [Numeral.parse_digits hne hdigits, ← Numeral.readDigits_zeros (by decide), spells_eq]
  by_cases hnil : digits.dropWhile (· = '0') = []
  · -- the digits are zeros only
    rw [hnil, Numeral.readDigits, Option.some.injEq]
    by_cases hid : id = 0
    · simp [hid]
    · have hspelling : [] ≠ Text.decimal id := Ne.symm Nat.toDigits_ne_nil
      simp [hid, Ne.symm hid, hspelling]
  · rw [Numeral.readDigits_iff_decimal hnil hzero hbound]
    by_cases hid : id = 0
    · subst hid
      have hhead : digits.dropWhile (· = '0') ≠ Text.decimal 0 := fun heq => hzero (heq ▸ rfl)
      rw [if_pos rfl]
      exact ⟨fun h => absurd h hnil, fun h => absurd h hhead⟩
    · rw [if_neg hid]

theorem spells_unique (h : spells digits id = true) (hother : spells digits other = true) :
    id = other := by
  have hspelling (n : Nat) : [] ≠ Text.decimal n := Ne.symm Nat.toDigits_ne_nil
  rw [spells_eq] at h hother
  rw [h] at hother
  by_cases hid : id = 0
  · by_cases hzero : other = 0
    · rw [hid, hzero]
    · rw [if_pos hid, if_neg hzero] at hother
      exact absurd hother (hspelling other)
  · by_cases hzero : other = 0
    · rw [if_neg hid, if_pos hzero] at hother
      exact absurd hother.symm (hspelling id)
    · rw [if_neg hid, if_neg hzero] at hother
      exact Text.decimal_injective hother

theorem definitionText_some_iff (line : Text) (id : Nat) (text : Text) :
    definitionText line id = some text ↔
      ∃ digits, definitionParts line = some (digits, text) ∧ spells digits id = true := by
  unfold definitionText
  constructor
  · intro h
    split at h
    · rename_i digits shown hparts
      split at h
      · cases h
        exact ⟨digits, hparts, ‹_›⟩
      · cases h
    · cases h
  · rintro ⟨digits, hparts, hspells⟩
    rw [hparts]
    dsimp only
    rw [if_pos hspells]

theorem definitionText_defines {line text : Text} (hline : '\n' ∉ line)
    (hbound : id < Numeral.bound) :
    definitionText line id = some text ↔ Defines line id text := by
  rw [definitionText_some_iff]
  constructor
  · rintro ⟨digits, hparts, hspells⟩
    obtain ⟨gap, rest, hparted, hshown⟩ := (definitionParts_iff hline).1 hparts
    have hvalue := (spells_iff hparted.digits_ne_nil hparted.digits.inside hbound).1 hspells
    exact ⟨digits, gap, rest, hparted, hvalue, hshown⟩
  · rintro ⟨digits, gap, rest, hparted, hvalue, hshown⟩
    have hspells := (spells_iff hparted.digits_ne_nil hparted.digits.inside hbound).2 hvalue
    exact ⟨digits, (definitionParts_iff hline).2 ⟨gap, rest, hparted, hshown⟩, hspells⟩

theorem definitionText_unique {line text otherText : Text} (h : definitionText line id = some text)
    (hother : definitionText line other = some otherText) : id = other := by
  obtain ⟨digits, hparts, hspells⟩ := (definitionText_some_iff _ _ _).1 h
  obtain ⟨same, hsame, hspellsother⟩ := (definitionText_some_iff _ _ _).1 hother
  rw [hparts] at hsame
  cases hsame
  exact spells_unique hspells hspellsother

end Numbers

/-- A line defines an instrument by the value of its digits, however they are padded, and no
other instrument; the comparison of spellings tells values apart for every digit run. -/
theorem definitionText_byValue (line : Text) (hline : '\n' ∉ line) :
    (∀ id text, id < Numeral.bound →
      (definitionText line id = some text ↔ Defines line id text)) ∧
    (∀ digits id, digits ≠ [] → (∀ c ∈ digits, Text.isDecimalDigit c = true) →
      id < Numeral.bound → (spells digits id = true ↔ Numeral.parse digits = some id)) ∧
    ∀ id other text otherText, definitionText line id = some text →
      definitionText line other = some otherText → id = other := by
  refine ⟨?_, ?_, ?_⟩
  · intro id text hbound
    exact definitionText_defines hline hbound
  · intro digits id hne hdigits hbound
    exact spells_iff hne hdigits hbound
  · intro id other text otherText h hother
    exact definitionText_unique h hother

/-- Nothing but blanks follows the padded number, so that the last blank is the text. -/
theorem definitionText_byValue_padded :
    '\n' ∉ "@ 007  ".toList ∧ Defines "@ 007  ".toList 7 [' '] ∧
      Numeral.parse "007".toList = some 7 ∧
      ∀ other text, definitionText "@ 007  ".toList other = some text → 7 = other := by
  have hline : '\n' ∉ "@ 007  ".toList := by decide
  have hshown : definitionText "@ 007  ".toList 7 = some [' '] := by decide +kernel
  obtain ⟨hdefines, hvalue, hunique⟩ := definitionText_byValue "@ 007  ".toList hline
  refine ⟨hline, (hdefines 7 [' '] (by decide)).1 hshown, ?_, ?_⟩
  · have hdigits : "007".toList.all Text.isDecimalDigit = true := by decide
    have hspells : spells "007".toList 7 = true := by decide +kernel
    exact (hvalue "007".toList 7 (by decide) (List.all_eq_true.1 hdigits) (by decide)).1 hspells
  · intro other text hother
    exact hunique 7 other [' '] text hshown hother

end MmlLookup.Instrument
