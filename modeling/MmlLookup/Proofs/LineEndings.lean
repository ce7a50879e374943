import Mathlib.Data.List.Forall2
import MmlLookup.Proofs.Canonical

/-!
# Line endings

A line ends at a line feed or at the end of the text, and a carriage return directly before
that belongs to the ending. Cutting a text into lines undoes joining them, whichever of the
two endings stands at each joint, and loses those carriage returns and nothing else.
-/

set_option autoImplicit false

namespace MmlLookup.Text

/-- A line with what its ending has before the line feed, perhaps a carriage return. -/
inductive Ended (line : Text) : Text → Prop
  | bare : Ended line line
  | returned : Ended line (line ++ ['\r'])

/-- The text is the lines joined at line feeds, with a carriage return behind any of them. -/
def Joins (lines : List Text) (text : Text) : Prop :=
  ∃ ended, List.Forall₂ Ended lines ended ∧ text = joinWith '\n' ended

def EndsLine (text : Text) (place : Nat) : Prop :=
  text[place]? = some '\r' ∧ (text[place + 1]? = none ∨ text[place + 1]? = some '\n')

instance (text : Text) (place : Nat) : Decidable (EndsLine text place) :=
  inferInstanceAs (Decidable (_ ∧ _))

/-- The text without the carriage returns that belong to line endings. -/
def kept (text : Text) : Text :=
  (List.range text.length).filterMap fun place =>
    if EndsLine text place then none else text[place]?

/-! ## One line -/

section Line

variable {line ended : Text}

theorem withoutReturn_cons (c : Char) {rest : Text} (h : c ≠ '\r' ∨ rest ≠ []) :
    withoutReturn (c :: rest) = c :: withoutReturn rest := by
  rw [withoutReturn]
  rintro rfl rfl
  exact h.elim (absurd rfl) (absurd rfl)

theorem withoutReturn_concat (line : Text) : withoutReturn (line ++ ['\r']) = line := by
  induction line with
  | nil => rfl
  | cons c line ih =>
    have hne : line ++ ['\r'] ≠ [] := List.concat_ne_nil '\r' line
    rw [List.cons_append, withoutReturn_cons c (.inr hne), ih]

theorem withoutReturn_of_last (h : line.getLast? ≠ some '\r') : withoutReturn line = line := by
  induction line with
  | nil => rfl
  | cons c rest ih =>
    by_cases hrest : rest = []
    · subst hrest
      rw [withoutReturn_cons c (.inl fun hc => h (by rw [hc]; rfl))]
      rfl
    · rw [withoutReturn_cons c (.inr hrest), ih]
      rw [List.getLast?_cons, List.getLast?_eq_some_getLast hrest] at h
      rwa [List.getLast?_eq_some_getLast hrest]

theorem ended_withoutReturn (line : Text) : Ended (withoutReturn line) line := by
  by_cases h : line.getLast? = some '\r'
  · obtain ⟨front, rfl⟩ := List.getLast?_eq_some_iff.1 h
    rw [withoutReturn_concat]
    exact .returned
  · rw [withoutReturn_of_last h]
    exact .bare

theorem Ended.withoutReturn_eq (h : Ended line ended) (hlast : line.getLast? ≠ some '\r') :
    withoutReturn ended = line := by
  cases h with
  | bare => exact withoutReturn_of_last hlast
  | returned => exact withoutReturn_concat line

theorem Ended.subset (h : Ended line ended) : line ⊆ ended := by
  cases h with
  | bare => exact List.Subset.refl line
  | returned => exact List.subset_append_left line ['\r']

theorem Ended.not_mem (h : Ended line ended) (hline : '\n' ∉ line) : '\n' ∉ ended := by
  cases h with
  | bare => exact hline
  | returned =>
    rw [List.mem_append, not_or]
    exact ⟨hline, by decide⟩

end Line

/-! ## All lines -/

theorem length_splitOn (mark : Char) (text : Text) :
    (splitOn mark text).length = text.count mark + 1 := by
  induction text with
  | nil => rfl
  | cons c rest ih =>
    by_cases hc : c = mark
    · rw [hc, splitOn_cons_self, List.count_cons_self, List.length_cons, ih]
    · rw [splitOn_cons_ne hc, List.count_cons_of_ne hc, List.length_modifyHead, ih]

theorem joins_splitLines (text : Text) : Joins (splitLines text) text := by
  have hended : List.Forall₂ Ended (splitLines text) (splitOn '\n' text) :=
    List.forall₂_map_left_iff.2 (List.forall₂_same.2 fun line _ => ended_withoutReturn line)
  exact ⟨splitOn '\n' text, hended, (joinWith_splitOn '\n' text).symm⟩

theorem not_mem_of_mem_splitLines {text line : Text} (h : line ∈ splitLines text) :
    '\n' ∉ line := by
  obtain ⟨ended, hended, rfl⟩ := List.mem_map.1 h
  exact fun hline => (of_mem_splitOn hended).1 ((ended_withoutReturn ended).subset hline)

theorem splitLines_of_joins {lines : List Text} {text : Text} (hne : lines ≠ [])
    (hlines : ∀ line ∈ lines, '\n' ∉ line ∧ line.getLast? ≠ some '\r')
    (h : Joins lines text) : splitLines text = lines := by
  obtain ⟨ended, hended, rfl⟩ := h
  have hall : (∀ line ∈ ended, '\n' ∉ line) ∧ ended.map withoutReturn = lines := by
    clear hne
    induction hended with
    | nil => exact ⟨fun line hline => (List.not_mem_nil hline).elim, rfl⟩
    | cons hfirst _ ih =>
      rw [List.forall_mem_cons] at hlines
      obtain ⟨hrest, hmap⟩ := ih hlines.2
      rw [List.forall_mem_cons, List.map_cons, hfirst.withoutReturn_eq hlines.1.2, hmap]
      exact ⟨⟨hfirst.not_mem hlines.1.1, hrest⟩, rfl⟩
  have hended : ended ≠ [] := by
    rintro rfl
    exact hne hall.2.symm
  rw [splitLines, splitOn_joinWith '\n' hended hall.1, hall.2]

/-! ## What is kept -/

theorem kept_cons (c : Char) (rest : Text) :
    kept (c :: rest) = if EndsLine (c :: rest) 0 then kept rest else c :: kept rest := by
  rw [kept, List.length_cons, List.range_succ_eq_map, List.filterMap_cons, List.filterMap_map]
  by_cases h : EndsLine (c :: rest) 0
  · rw [if_pos h, if_pos h]
    rfl
  · rw [if_neg h, if_neg h]
    rfl

theorem joinWith_cons_piece (mark c : Char) (piece : Text) (pieces : List Text) :
    joinWith mark ((c :: piece) :: pieces) = c :: joinWith mark (piece :: pieces) := by
  cases pieces <;> rfl

theorem head_splitOn {mark : Char} {text first : Text} {pieces : List Text}
    (h : splitOn mark text = first :: pieces) :
    first = [] ↔ text[0]? = none ∨ text[0]? = some mark := by
  cases text with
  | nil =>
    cases h
    simp
  | cons c rest =>
    by_cases hc : c = mark
    · rw [hc, splitOn_cons_self] at h
      cases h
      simp [hc]
    · rw [splitOn_cons_ne hc] at h
      cases hs : splitOn mark rest with
      | nil => exact absurd hs (splitOn_ne_nil mark rest)
      | cons next others =>
        rw [hs] at h
        cases h
        simp [hc]

/-- Joined at line feeds alone, the lines are the text without the carriage returns of its
line endings. The induction goes from the end of the text, where each character opens a line
or is put in front of the one behind it. -/
theorem joinWith_splitLines (text : Text) : joinWith '\n' (splitLines text) = kept text := by
  induction text with
  | nil => rfl
  | cons c rest ih =>
    rw [kept_cons, ← ih, splitLines, splitLines]
    cases hs : splitOn '\n' rest with
    | nil => exact absurd hs (splitOn_ne_nil '\n' rest)
    | cons first pieces =>
      by_cases hc : c = '\n'
      · have hends : ¬ EndsLine (c :: rest) 0 := by
          rintro ⟨hreturn, -⟩
          rw [hc] at hreturn
          cases hreturn
        rw [if_neg hends, hc, splitOn_cons_self, hs]
        rfl
      · have hfirst := head_splitOn hs
        rw [splitOn_cons_ne hc, hs, List.modifyHead_cons, List.map_cons, List.map_cons]
        by_cases hends : EndsLine (c :: rest) 0
        · obtain ⟨hreturn, hbehind⟩ := id hends
          obtain rfl : c = '\r' := Option.some.inj hreturn
          obtain rfl : first = [] := hfirst.2 hbehind
          rw [if_pos hends]
          rfl
        · have hstays : c ≠ '\r' ∨ first ≠ [] := by
            by_cases hreturn : c = '\r'
            · apply Or.inr
              intro hnil
              exact hends ⟨by rw [hreturn]; rfl, hfirst.1 hnil⟩
            · exact .inl hreturn
          rw [if_neg hends, withoutReturn_cons c hstays, joinWith_cons_piece]

/-- Cutting into lines undoes joining them with either ending at each joint and perhaps a
carriage return at the end. Of every text there is one line more than line feeds, no line
holds one, and the lines give the text back with a carriage return behind some of them: all
that is lost are those directly before a line feed or the end. -/
theorem splitLines_joins (text : Text) :
    (∀ lines, lines ≠ [] →
      (∀ line ∈ lines, '\n' ∉ line ∧ line.getLast? ≠ some '\r') →
      Joins lines text → splitLines text = lines) ∧
    (splitLines text).length = text.count '\n' + 1 ∧
    (∀ line ∈ splitLines text, '\n' ∉ line) ∧
    Joins (splitLines text) text ∧
    joinWith '\n' (splitLines text) = kept text := by
  refine ⟨?_, ?_, ?_, ?_, ?_⟩
  · exact fun lines hne hlines hjoins => splitLines_of_joins hne hlines hjoins
  · rw [splitLines, List.length_map, length_splitOn]
  · exact fun line hline => not_mem_of_mem_splitLines hline
  · exact joins_splitLines text
  · exact joinWith_splitLines text

/-- Both endings, an empty line, a carriage return within a line and one at the end. -/
theorem splitLines_joins_mixed :
    splitLines "a\r\nb\rc\n\n\r".toList = ["a".toList, "b\rc".toList, [], []] := by
  apply (splitLines_joins _).1
  · decide
  · decide
  · exact ⟨["a\r".toList, "b\rc".toList, [], ['\r']], .cons .returned (.cons .bare
      (.cons .bare (.cons .returned .nil))), by decide⟩

example : splitLines "a\r\r\n".toList = ["a\r".toList, []] := by decide

end MmlLookup.Text
