import MmlLookup.Text.Blank

/-!
# Blanks handed back

A gap is a run of blanks that does not go on. A reader behind a gap is first offered what
follows the gap. While it refuses, one blank more is handed back to it, from the gap's end,
and one blank at least is kept. A reader that refuses nothing for being offered fewer blanks
is handed back one blank at most.
-/

set_option autoImplicit false

namespace MmlLookup.Text

/-- Characters of the class, with nothing behind them that goes on with them. -/
structure Longest (accepts : Char → Bool) (run rest : Text) : Prop where
  inside : ∀ c ∈ run, accepts c = true
  behind : ∀ c, rest.head? = some c → accepts c = false

section Runs

variable {accepts : Char → Bool} {run rest text : Text}

theorem Longest.takeWhile_eq (h : Longest accepts run rest) :
    (run ++ rest).takeWhile accepts = run := by
  rw [List.takeWhile_append_of_pos h.inside]
  cases rest with
  | nil => simp
  | cons c rest => simp [h.behind c rfl]

theorem Longest.dropWhile_eq (h : Longest accepts run rest) :
    (run ++ rest).dropWhile accepts = rest := by
  rw [List.dropWhile_append_of_pos h.inside]
  cases rest with
  | nil => rfl
  | cons c rest => simp [h.behind c rfl]

theorem longest_exists (accepts : Char → Bool) (text : Text) :
    ∃ run rest, text = run ++ rest ∧ Longest accepts run rest := by
  refine ⟨text.takeWhile accepts, text.dropWhile accepts,
    List.takeWhile_append_dropWhile.symm, fun c hc => ?_, fun c hc => ?_⟩
  · exact List.all_eq_true.1 List.all_takeWhile c hc
  · have hrefused := List.head?_dropWhile_not accepts text
    rw [hc] at hrefused
    simpa using hrefused

theorem longest_single {c : Char} (hc : accepts c = true)
    (hrest : ∀ d, rest.head? = some d → accepts d = false) : Longest accepts [c] rest := by
  refine ⟨fun d hd => ?_, hrest⟩
  rw [List.mem_singleton.1 hd]
  exact hc

theorem leadingRun_some_iff : leadingRun accepts text = some (run, rest) ↔
    text = run ++ rest ∧ run ≠ [] ∧ Longest accepts run rest := by
  constructor
  · intro h
    obtain ⟨front, back, rfl, hlongest⟩ := longest_exists accepts text
    unfold leadingRun at h
    rw [hlongest.takeWhile_eq, hlongest.dropWhile_eq] at h
    split at h
    · cases h
    · rename_i hne
      cases h
      exact ⟨rfl, fun hnil => hne hnil, hlongest⟩
  · rintro ⟨rfl, hne, hlongest⟩
    unfold leadingRun
    rw [hlongest.takeWhile_eq, hlongest.dropWhile_eq]
    cases run with
    | nil => exact absurd rfl hne
    | cons c run => rfl

theorem trimEnd_append {name blanks : Text} (hblanks : ∀ c ∈ blanks, isBlank c = true)
    (hlast : ∀ c, name.getLast? = some c → isBlank c = false) :
    trimEnd (name ++ blanks) = name := by
  have hback : Longest isBlank blanks.reverse name.reverse := by
    refine ⟨fun c hc => hblanks c (List.mem_reverse.1 hc), fun c hc => hlast c ?_⟩
    rwa [List.head?_reverse] at hc
  rw [trimEnd, List.reverse_append, hback.dropWhile_eq, List.reverse_reverse]

end Runs

section Blanks

variable {α : Type} {read : Text → Option α} {gap rest text : Text} {result : α}

theorem afterBlanks_cons {c : Char} (hblank : isBlank c = true) :
    afterBlanks read (c :: text) = (afterBlanks read text).or (read text) := by
  rw [afterBlanks, if_pos hblank]
  cases afterBlanks read text <;> rfl

theorem afterBlanks_bare (h : ∀ c, text.head? = some c → isBlank c = false) :
    afterBlanks read text = none := by
  cases text with
  | nil => rfl
  | cons c text =>
    rw [afterBlanks, if_neg]
    rw [h c rfl]
    decide

/-- Nothing is read if the reader refuses whatever part of the gap is handed back. -/
theorem afterBlanks_none_iff (hgap : Longest isBlank gap rest) :
    afterBlanks read (gap ++ rest) = none ↔
      ∀ kept back, gap = kept ++ back → kept ≠ [] → read (back ++ rest) = none := by
  obtain ⟨hinside, hbehind⟩ := hgap
  induction gap with
  | nil =>
    refine ⟨fun _ kept back hcut hkept => ?_, fun _ => afterBlanks_bare hbehind⟩
    exact absurd (List.append_eq_nil_iff.1 hcut.symm).1 hkept
  | cons c gap ih =>
    have hrest := ih fun d hd => hinside d (List.mem_cons_of_mem c hd)
    rw [List.cons_append, afterBlanks_cons (hinside c (by simp)), Option.or_eq_none_iff, hrest]
    constructor
    · rintro ⟨hfewer, hall⟩ kept back hcut hkept
      cases kept with
      | nil => exact absurd rfl hkept
      | cons d kept =>
        obtain ⟨-, rfl⟩ := List.cons.inj hcut
        by_cases hnil : kept = []
        · subst hnil
          exact hall
        · exact hfewer kept back rfl hnil
    · intro h
      refine ⟨fun kept back hcut _ => ?_, h [c] gap rfl (by simp)⟩
      exact h (c :: kept) back (by rw [hcut, List.cons_append]) (by simp)

/-- What is read is read with as few blanks handed back as the reader accepts. -/
theorem afterBlanks_some_iff (hgap : Longest isBlank gap rest) :
    afterBlanks read (gap ++ rest) = some result ↔
      ∃ kept back, gap = kept ++ back ∧ kept ≠ [] ∧ read (back ++ rest) = some result ∧
        ∀ passed fewer, back = passed ++ fewer → passed ≠ [] → read (fewer ++ rest) = none := by
  obtain ⟨hinside, hbehind⟩ := hgap
  induction gap with
  | nil =>
    rw [List.nil_append, afterBlanks_bare hbehind]
    constructor
    · intro h
      cases h
    · rintro ⟨kept, back, hcut, hkept, -⟩
      exact absurd (List.append_eq_nil_iff.1 hcut.symm).1 hkept
  | cons c gap ih =>
    have htail : ∀ d ∈ gap, isBlank d = true := fun d hd => hinside d (List.mem_cons_of_mem c hd)
    rw [List.cons_append, afterBlanks_cons (hinside c (by simp)), Option.or_eq_some_iff,
      ih htail, afterBlanks_none_iff ⟨htail, hbehind⟩]
    constructor
    · rintro (⟨kept, back, hcut, -, hread, hfewer⟩ | ⟨hfewer, hread⟩)
      · exact ⟨c :: kept, back, by rw [hcut, List.cons_append], by simp, hread, hfewer⟩
      · exact ⟨[c], gap, rfl, by simp, hread, hfewer⟩
    · rintro ⟨kept, back, hcut, hkept, hread, hfewer⟩
      cases kept with
      | nil => exact absurd rfl hkept
      | cons d kept =>
        obtain ⟨-, rfl⟩ := List.cons.inj hcut
        by_cases hnil : kept = []
        · subst hnil
          exact .inr ⟨hfewer, hread⟩
        · exact .inl ⟨kept, back, rfl, hnil, hread, hfewer⟩

/-- A reader that accepts a text behind blanks of the gap accepts it behind the last one. -/
def LastEnough (read : Text → Option α) (gap rest : Text) : Prop :=
  ∀ kept back blank, gap = kept ++ (back ++ [blank]) →
    read (blank :: rest) = none → read (back ++ blank :: rest) = none

theorem afterBlanks_handed_iff (hgap : Longest isBlank gap rest)
    (hlast : LastEnough read gap rest) :
    afterBlanks read (gap ++ rest) = some result ↔
      gap ≠ [] ∧ (read rest = some result ∨ read rest = none ∧
        ∃ kept blank, kept ≠ [] ∧ gap = kept ++ [blank] ∧
          read (blank :: rest) = some result) := by
  rw [afterBlanks_some_iff hgap]
  constructor
  · rintro ⟨kept, back, rfl, hkept, hread, hfewer⟩
    refine ⟨fun hnil => hkept (List.append_eq_nil_iff.1 hnil).1, ?_⟩
    rcases List.eq_nil_or_concat back with rfl | ⟨passed, blank, hback⟩
    · exact .inl hread
    · rw [List.concat_eq_append] at hback
      subst hback
      have hnone := hfewer (passed ++ [blank]) [] (by simp) (by simp)
      refine .inr ⟨hnone, ?_⟩
      by_cases hpassed : passed = []
      · subst hpassed
        exact ⟨kept, blank, hkept, rfl, hread⟩
      · -- the last blank would have done already
        have hone := hfewer passed [blank] rfl hpassed
        have hmany := hlast kept passed blank rfl hone
        rw [List.append_assoc, List.singleton_append, hmany] at hread
        cases hread
  · rintro ⟨hne, hread | ⟨hnone, kept, blank, hkept, rfl, hread⟩⟩
    · refine ⟨gap, [], by simp, hne, hread, fun passed fewer hcut hpassed => ?_⟩
      exact absurd (List.append_eq_nil_iff.1 hcut.symm).1 hpassed
    · refine ⟨kept, [blank], rfl, hkept, hread, fun passed fewer hcut hpassed => ?_⟩
      obtain ⟨rfl, rfl⟩ : passed = [blank] ∧ fewer = [] := by
        cases passed with
        | nil => exact absurd rfl hpassed
        | cons d passed =>
          simp only [List.cons_append, List.cons.injEq, List.nil_eq, List.append_eq_nil_iff] at hcut
          obtain ⟨rfl, rfl, rfl⟩ := hcut
          exact ⟨rfl, rfl⟩
      exact hnone

end Blanks

/-! ## The rest of a line -/

section Lines

variable {text : Text}

theorem line_behind {gap kept back rest : Text} (hcut : gap = kept ++ back)
    (hline : '\n' ∉ gap ++ rest) : '\n' ∉ back ++ rest := by
  intro hmem
  rw [hcut, List.append_assoc] at hline
  exact hline (List.mem_append_right kept hmem)

theorem restOfLine_longest {line rest : Text} (hne : line ≠ [])
    (h : Longest (· ≠ '\n') line rest) : restOfLine (line ++ rest) = some line := by
  unfold restOfLine
  rw [h.takeWhile_eq]
  cases line with
  | nil => exact absurd rfl hne
  | cons c line => rfl

theorem restOfLine_some_iff (hline : '\n' ∉ text) (taken : Text) :
    restOfLine text = some taken ↔ text ≠ [] ∧ taken = text := by
  by_cases hne : text = []
  · subst hne
    simp [restOfLine]
  · have hlongest : Longest (· ≠ '\n') text [] := by
      refine ⟨fun c hc => ?_, fun c hc => by cases hc⟩
      have hother : c ≠ '\n' := fun heq => hline (heq ▸ hc)
      simpa using hother
    have hread := restOfLine_longest hne hlongest
    rw [List.append_nil] at hread
    rw [hread, Option.some.injEq]
    exact ⟨fun heq => ⟨hne, heq.symm⟩, fun h => h.2.symm⟩

end Lines

end MmlLookup.Text
