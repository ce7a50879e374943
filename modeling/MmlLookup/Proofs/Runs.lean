import MmlLookup.Numeral

/-!
# Runs of characters

A run is a stretch of a line whose characters are all of one class, and which goes on at
neither end. It is given by the place of its first character and the place behind its
last. A reader that takes as many characters of a class as it can, from a place with none
of them just before it, takes a run. A numeral in a line is a run of digits, or a dollar
sign and the run of hexadecimal digits behind it.
-/

set_option autoImplicit false

namespace MmlLookup.Text

/-- A place with no character of the class just before it. -/
def Edge (accepts : Char → Bool) (text : Text) (place : Nat) : Prop :=
  ∀ before c, before + 1 = place → text[before]? = some c → accepts c = false

structure Run (accepts : Char → Bool) (text : Text) (first last : Nat) : Prop where
  edge : Edge accepts text first
  nonempty : first < last
  inside : ∀ place, first ≤ place → place < last → ∃ c, text[place]? = some c ∧ accepts c = true
  behind : ∀ c, text[last]? = some c → accepts c = false

theorem edge_zero (accepts : Char → Bool) (text : Text) : Edge accepts text 0 := by
  intro before c hbefore
  omega

theorem edge_succ {accepts : Char → Bool} {text : Text} {place : Nat} :
    Edge accepts text (place + 1) ↔ ∀ c, text[place]? = some c → accepts c = false := by
  constructor
  · intro h c hc
    exact h place c rfl hc
  · intro h before c hbefore hc
    obtain rfl : before = place := by omega
    exact h c hc

section Runs

variable {accepts : Char → Bool} {text : Text} {first last first' last' place : Nat} {c : Char}

theorem Run.accepted (h : Run accepts text first last) (hfirst : first ≤ place)
    (hlast : place < last) (hc : text[place]? = some c) : accepts c = true := by
  obtain ⟨d, hd, haccepts⟩ := h.inside place hfirst hlast
  rw [hc] at hd
  cases hd
  exact haccepts

theorem Run.within (h : Run accepts text first last) : last ≤ text.length := by
  have hpos := h.nonempty
  obtain ⟨c, hc, -⟩ := h.inside (last - 1) (by omega) (by omega)
  have hlt := (List.getElem?_eq_some_iff.1 hc).1
  omega

theorem Run.first_le (h : Run accepts text first last) (h' : Run accepts text first' last')
    (hmeet : first < last') (hinside : first' ≤ first) : first ≤ first' := by
  by_cases hlt : first' < first
  · obtain ⟨c, hc, haccepts⟩ := h'.inside (first - 1) (by omega) (by omega)
    have hrefused := h.edge (first - 1) c (by omega) hc
    rw [haccepts] at hrefused
    cases hrefused
  · omega

theorem Run.last_le (h : Run accepts text first last) (h' : Run accepts text first' last')
    (hmeet : first' ≤ last) : last' ≤ last := by
  by_cases hlt : last < last'
  · obtain ⟨c, hc, haccepts⟩ := h'.inside last hmeet hlt
    have hrefused := h.behind c hc
    rw [haccepts] at hrefused
    cases hrefused
  · omega

theorem Run.unique (h : Run accepts text first last) (h' : Run accepts text first' last')
    (hfirst : first ≤ place) (hlast : place < last) (hfirst' : first' ≤ place)
    (hlast' : place < last') : first = first' ∧ last = last' := by
  have hlastle := h.last_le h' (by omega)
  have hlastge := h'.last_le h (by omega)
  refine ⟨?_, by omega⟩
  rcases Nat.le_total first first' with hle | hle
  · have := h'.first_le h (by omega) hle
    omega
  · have := h.first_le h' (by omega) hle
    omega

/-! ## What a reader takes -/

theorem drop_of_getElem? (hc : text[place]? = some c) :
    text.drop place = c :: text.drop (place + 1) := by
  obtain ⟨hlt, rfl⟩ := List.getElem?_eq_some_iff.1 hc
  exact List.drop_eq_getElem_cons hlt

theorem length_takeWhile_iff (accepts : Char → Bool) (text : Text) (count : Nat) :
    (text.takeWhile accepts).length = count ↔
      (∀ i, i < count → ∃ c, text[i]? = some c ∧ accepts c = true) ∧
        ∀ c, text[count]? = some c → accepts c = false := by
  induction text generalizing count with
  | nil =>
    cases count with
    | zero => simp
    | succ count =>
      constructor
      · intro h
        cases h
      · intro h
        obtain ⟨c, hc, -⟩ := h.1 0 (by omega)
        cases hc
  | cons c rest ih =>
    by_cases hc : accepts c = true
    · rw [List.takeWhile_cons_of_pos hc, List.length_cons]
      cases count with
      | zero => simp [hc]
      | succ count =>
        rw [Nat.add_right_cancel_iff, ih]
        simp only [List.getElem?_cons_succ]
        constructor
        · rintro ⟨hin, hout⟩
          refine ⟨fun i hi => ?_, hout⟩
          cases i with
          | zero => exact ⟨c, rfl, hc⟩
          | succ i => simpa using hin i (by omega)
        · rintro ⟨hin, hout⟩
          exact ⟨fun i hi => by simpa using hin (i + 1) (by omega), hout⟩
    · rw [List.takeWhile_cons_of_neg hc]
      cases count with
      | zero => simpa using hc
      | succ count =>
        constructor
        · intro h
          cases h
        · intro h
          exact absurd (by simpa using h.1 0 (by omega)) hc

/-- What is taken of a line from place `first` ends just before place `last`. -/
def Taken (accepts : Char → Bool) (text : Text) (first last : Nat) : Prop :=
  first ≤ last ∧ ((text.drop first).takeWhile accepts).length = last - first

theorem taken_iff : Taken accepts text first last ↔ first ≤ last ∧
    (∀ place, first ≤ place → place < last → ∃ c, text[place]? = some c ∧ accepts c = true) ∧
    ∀ c, text[last]? = some c → accepts c = false := by
  unfold Taken
  rw [length_takeWhile_iff]
  simp only [List.getElem?_drop]
  refine and_congr_right fun hle => ?_
  have hlast : first + (last - first) = last := by omega
  rw [hlast]
  refine and_congr_left fun _ => ?_
  constructor
  · intro h place hfirst hplace
    have hshift : first + (place - first) = place := by omega
    rw [← hshift]
    exact h (place - first) (by omega)
  · intro h i hi
    exact h (first + i) (by omega) (by omega)

theorem Run.taken (h : Run accepts text first last) (hfirst : first ≤ place)
    (hlast : place ≤ last) : Taken accepts text place last :=
  taken_iff.2 ⟨hlast, fun other ho => h.inside other (by omega), h.behind⟩

theorem Taken.takeWhile_eq (h : Taken accepts text first last) :
    (text.drop first).takeWhile accepts = text.extract first last := by
  rw [List.prefix_iff_eq_take.1 (List.takeWhile_prefix accepts), h.2]

theorem Taken.dropWhile_eq (h : Taken accepts text first last) :
    (text.drop first).dropWhile accepts = text.drop last := by
  have hlast : first + (last - first) = last := Nat.add_sub_of_le h.1
  have hsplit := congrArg (List.drop (last - first))
    (List.takeWhile_append_dropWhile (p := accepts) (l := text.drop first))
  rwa [List.drop_left' h.2, List.drop_drop, hlast] at hsplit

theorem Taken.length_eq (h : Taken accepts text first last) :
    (text.extract first last).length = last - first := by
  rw [← h.takeWhile_eq]
  exact h.2

theorem extract_append (hfirst : first ≤ place) (hlast : place ≤ last) :
    text.extract first place ++ text.extract place last = text.extract first last := by
  have hcount : last - first = place - first + (last - place) := by omega
  have hplace : first + (place - first) = place := by omega
  simp only [List.extract]
  rw [hcount, List.take_add, List.drop_drop, hplace]

theorem Run.extract_ne_nil (h : Run accepts text first last) : text.extract first last ≠ [] := by
  intro hnil
  have hpos := h.nonempty
  have hlength := (h.taken (Nat.le_refl _) (Nat.le_of_lt hpos)).length_eq
  rw [hnil, List.length_nil] at hlength
  omega

theorem run_exists (hedge : Edge accepts text first) (hc : text[first]? = some c)
    (haccepts : accepts c = true) : ∃ last, Run accepts text first last := by
  have hpos : 0 < ((text.drop first).takeWhile accepts).length := by
    rw [drop_of_getElem? hc, List.takeWhile_cons_of_pos haccepts, List.length_cons]
    omega
  obtain ⟨-, hinside, hbehind⟩ := taken_iff.1
    (⟨by omega, by omega⟩ : Taken accepts text first
      (first + ((text.drop first).takeWhile accepts).length))
  exact ⟨_, hedge, by omega, hinside, hbehind⟩

theorem run_behind (front run : Text) (hfront : ∀ c, front.getLast? = some c → accepts c = false)
    (hne : run ≠ []) (hrun : ∀ c ∈ run, accepts c = true) :
    Run accepts (front ++ run) front.length (front.length + run.length) := by
  have hpos := List.length_pos_iff.2 hne
  refine ⟨fun before c hbefore hc => ?_, by omega, fun place hfirst hlast => ?_, fun c hc => ?_⟩
  · rw [List.getElem?_append_left (by omega)] at hc
    apply hfront
    rw [List.getLast?_eq_getElem?, ← hbefore, Nat.add_sub_cancel]
    exact hc
  · have hlt : place - front.length < run.length := by omega
    rw [List.getElem?_append_right hfirst]
    exact ⟨_, List.getElem?_eq_getElem hlt, hrun _ (List.getElem_mem hlt)⟩
  · have hlt := (List.getElem?_eq_some_iff.1 hc).1
    rw [List.length_append] at hlt
    omega

theorem run_around (hc : text[place]? = some c) (haccepts : accepts c = true) :
    ∃ first last, Run accepts text first last ∧ first ≤ place ∧ place < last := by
  induction place generalizing c with
  | zero =>
    obtain ⟨last, hrun⟩ := run_exists (edge_zero accepts text) hc haccepts
    exact ⟨0, last, hrun, Nat.le_refl _, hrun.nonempty⟩
  | succ place ih =>
    by_cases hedge : Edge accepts text (place + 1)
    · obtain ⟨last, hrun⟩ := run_exists hedge hc haccepts
      exact ⟨place + 1, last, hrun, Nat.le_refl _, hrun.nonempty⟩
    · -- the character before is of the class too, and its run goes on
      rw [edge_succ, Classical.not_forall] at hedge
      obtain ⟨d, hd⟩ := hedge
      obtain ⟨hd, hne⟩ := Classical.not_imp.1 hd
      obtain ⟨first, last, hrun, hfirst, hlast⟩ := ih hd (by simpa using hne)
      refine ⟨first, last, hrun, by omega, ?_⟩
      by_cases hend : last = place + 1
      · subst hend
        rw [hrun.behind c hc] at haccepts
        cases haccepts
      · omega

/-- What follows a run does not change it, unless it goes on with it. -/
theorem Run.append (h : Run accepts text first last) {tail : Text}
    (htail : ∀ c, tail[0]? = some c → accepts c = false) :
    Run accepts (text ++ tail) first last := by
  have hpos := h.nonempty
  have hwithin := h.within
  have hfront (place : Nat) (hlt : place < text.length) : (text ++ tail)[place]? = text[place]? :=
    List.getElem?_append_left hlt
  refine ⟨fun before c hbefore hc => ?_, hpos, fun place hfirst hlast => ?_, fun c hc => ?_⟩
  · rw [hfront before (by omega)] at hc
    exact h.edge before c hbefore hc
  · rw [hfront place (by omega)]
    exact h.inside place hfirst hlast
  · by_cases hlt : last < text.length
    · rw [hfront last hlt] at hc
      exact h.behind c hc
    · have hend : last - text.length = 0 := by omega
      rw [List.getElem?_append_right (by omega), hend] at hc
      exact htail c hc

theorem Run.leadingRun_eq (h : Run accepts text first last) :
    leadingRun accepts (text.drop first) = some (text.extract first last, text.drop last) := by
  have htaken := h.taken (Nat.le_refl _) (Nat.le_of_lt h.nonempty)
  unfold leadingRun
  rw [htaken.takeWhile_eq, htaken.dropWhile_eq]
  split
  · exact absurd ‹_› h.extract_ne_nil
  · rfl

theorem leadingRun_eq_none (hrefused : ∀ c, text[first]? = some c → accepts c = false) :
    leadingRun accepts (text.drop first) = none := by
  have hempty : (text.drop first).takeWhile accepts = [] := by
    apply List.length_eq_zero_iff.1
    rw [length_takeWhile_iff]
    refine ⟨fun i hi => by omega, fun c hc => hrefused c ?_⟩
    simpa using hc
  rw [leadingRun, hempty]

end Runs

/-! ## Blanks are no digits -/

def blankCodes : List Nat :=
  [ 0x9, 0xA, 0xB, 0xC, 0xD, 0x20, 0x85, 0xA0, 0x1680, 0x2000, 0x2001, 0x2002, 0x2003, 0x2004,
    0x2005, 0x2006, 0x2007, 0x2008, 0x2009, 0x200A, 0x2028, 0x2029, 0x202F, 0x205F, 0x3000 ]

theorem isBlank_code {c : Char} (h : isBlank c = true) : c.toNat ∈ blankCodes := by
  simp only [isBlank, Bool.or_eq_true, Bool.and_eq_true, decide_eq_true_eq, beq_iff_eq] at h
  simp only [blankCodes, List.mem_cons, List.not_mem_nil, or_false]
  omega

theorem blankCodes_undigited : ∀ code ∈ blankCodes,
    isDecimalDigit (Char.ofNat code) = false ∧ isHexDigit (Char.ofNat code) = false := by
  decide +kernel

theorem isBlank_undigited {c : Char} (h : isBlank c = true) :
    isDecimalDigit c = false ∧ isHexDigit c = false := by
  have hcode := blankCodes_undigited c.toNat (isBlank_code h)
  rwa [Char.ofNat_toNat] at hcode

end Text

namespace Numeral

open Text (Edge Run)

/-- A numeral from place `first` up to place `last`, with nothing behind it that goes on
with it. -/
inductive Stands (text : Text) (first last : Nat) : Prop
  | decimal : Run Text.isDecimalDigit text first last → Stands text first last
  | hexadecimal : text[first]? = some '$' → Run Text.isHexDigit text (first + 1) last →
      Stands text first last

/-- A decimal digit at the place, or a dollar sign and a hexadecimal digit. -/
inductive Begins (text : Text) (place : Nat) : Prop
  | decimal (c : Char) : text[place]? = some c → Text.isDecimalDigit c = true →
      Begins text place
  | hexadecimal (c : Char) : text[place]? = some '$' → text[place + 1]? = some c →
      Text.isHexDigit c = true → Begins text place

section Places

variable {text : Text} {first last last' place : Nat}

theorem Stands.lt (h : Stands text first last) : first < last := by
  cases h with
  | decimal hrun => exact hrun.nonempty
  | hexadecimal _ hrun =>
    have hpos := hrun.nonempty
    omega

theorem Stands.within (h : Stands text first last) : last ≤ text.length := by
  cases h with
  | decimal hrun => exact hrun.within
  | hexadecimal _ hrun => exact hrun.within

theorem Stands.begins (h : Stands text first last) : Begins text first := by
  cases h with
  | decimal hrun =>
    obtain ⟨c, hc, hdigit⟩ := hrun.inside first (by omega) hrun.nonempty
    exact .decimal c hc hdigit
  | hexadecimal hdollar hrun =>
    obtain ⟨c, hc, hdigit⟩ := hrun.inside (first + 1) (by omega) hrun.nonempty
    exact .hexadecimal c hdollar hc hdigit

theorem Stands.characters (h : Stands text first last) (hfirst : first ≤ place)
    (hlast : place < last) :
    ∃ c, text[place]? = some c ∧
      (c = '$' ∨ Text.isDecimalDigit c = true ∨ Text.isHexDigit c = true) := by
  cases h with
  | decimal hrun =>
    obtain ⟨c, hc, hdigit⟩ := hrun.inside place hfirst hlast
    exact ⟨c, hc, .inr (.inl hdigit)⟩
  | hexadecimal hdollar hrun =>
    by_cases heq : place = first
    · subst heq
      exact ⟨'$', hdollar, .inl rfl⟩
    · obtain ⟨c, hc, hdigit⟩ := hrun.inside place (by omega) hlast
      exact ⟨c, hc, .inr (.inr hdigit)⟩

/-- Whatever begins like a numeral begins with one. -/
theorem Begins.stands (hedge : Edge Text.isDecimalDigit text first) (h : Begins text first) :
    ∃ last, Stands text first last := by
  cases h with
  | decimal c hc hdigit =>
    obtain ⟨last, hrun⟩ := Text.run_exists hedge hc hdigit
    exact ⟨last, .decimal hrun⟩
  | hexadecimal c hdollar hc hdigit =>
    have hhex : Edge Text.isHexDigit text (first + 1) := by
      rw [Text.edge_succ, hdollar]
      rintro d ⟨⟩
      decide
    obtain ⟨last, hrun⟩ := Text.run_exists hhex hc hdigit
    exact ⟨last, .hexadecimal hdollar hrun⟩

theorem leading_cons (c : Char) (rest : Text) (hc : c ≠ '$') :
    leading (c :: rest) = Text.leadingRun Text.isDecimalDigit (c :: rest) := by
  unfold leading
  split
  · rename_i heq
    cases heq
    exact absurd rfl hc
  · rfl

theorem Stands.leading_eq (h : Stands text first last) :
    leading (text.drop first) = some (text.extract first last, text.drop last) := by
  cases h with
  | decimal hrun =>
    obtain ⟨c, hc, hdigit⟩ := hrun.inside first (by omega) hrun.nonempty
    have hne : c ≠ '$' := by
      rintro rfl
      exact absurd hdigit (by decide)
    have hleading := hrun.leadingRun_eq
    rw [Text.drop_of_getElem? hc] at hleading ⊢
    rw [leading_cons c _ hne, hleading]
  | hexadecimal hdollar hrun =>
    have hpos := hrun.nonempty
    have hextract : text.extract first last = '$' :: text.extract (first + 1) last := by
      have hcount : last - first = last - (first + 1) + 1 := by omega
      rw [List.extract, Text.drop_of_getElem? hdollar, hcount, List.take_succ_cons]
    rw [Text.drop_of_getElem? hdollar, leading, hrun.leadingRun_eq, hextract]
    rfl

theorem Stands.length_eq (h : Stands text first last) :
    (text.extract first last).length = last - first := by
  have hwithin := h.within
  rw [List.extract, List.length_take, List.length_drop]
  omega

theorem leading_eq_none (h : ¬ Begins text first) : leading (text.drop first) = none := by
  cases hc : text[first]? with
  | none =>
    rw [List.drop_eq_nil_of_le (List.getElem?_eq_none_iff.1 hc)]
    rfl
  | some c =>
    by_cases hdollar : c = '$'
    · subst hdollar
      rw [Text.drop_of_getElem? hc, leading, Text.leadingRun_eq_none]
      · rfl
      · intro d hd
        exact eq_false_of_ne_true fun hdigit => h (.hexadecimal d hc hd hdigit)
    · have hnone : Text.leadingRun Text.isDecimalDigit (text.drop first) = none := by
        apply Text.leadingRun_eq_none
        intro d hd
        exact eq_false_of_ne_true fun hdigit => h (.decimal d hd hdigit)
      rw [Text.drop_of_getElem? hc] at hnone ⊢
      rw [leading_cons c _ hdollar, hnone]

theorem Stands.unique (h : Stands text first last) (h' : Stands text first last') :
    last = last' := by
  have hsame : text.drop last = text.drop last' := by
    have heq := h.leading_eq.symm.trans h'.leading_eq
    exact (Prod.mk.inj (Option.some.inj heq)).2
  have hlength := congrArg List.length hsame
  have hwithin := h.within
  have hwithin' := h'.within
  simp only [List.length_drop] at hlength
  omega

theorem Stands.append (h : Stands text first last) {tail : Text}
    (htail : ∀ c, tail[0]? = some c → Text.isBlank c = true) :
    Stands (text ++ tail) first last := by
  cases h with
  | decimal hrun =>
    exact .decimal (hrun.append fun c hc => (Text.isBlank_undigited (htail c hc)).1)
  | hexadecimal hdollar hrun =>
    have hlt := (List.getElem?_eq_some_iff.1 hdollar).1
    refine .hexadecimal ?_ (hrun.append fun c hc => (Text.isBlank_undigited (htail c hc)).2)
    rw [List.getElem?_append_left hlt, hdollar]

theorem Begins.of_append {tail : Text} (h : Begins (text ++ tail) place)
    (hplace : place < text.length)
    (htail : ∀ c, tail[0]? = some c → Text.isBlank c = true) : Begins text place := by
  cases h with
  | decimal c hc hdigit =>
    rw [List.getElem?_append_left hplace] at hc
    exact .decimal c hc hdigit
  | hexadecimal c hdollar hc hdigit =>
    rw [List.getElem?_append_left hplace] at hdollar
    by_cases hlt : place + 1 < text.length
    · rw [List.getElem?_append_left hlt] at hc
      exact .hexadecimal c hdollar hc hdigit
    · have hend : place + 1 - text.length = 0 := by omega
      rw [List.getElem?_append_right (by omega), hend] at hc
      rw [(Text.isBlank_undigited (htail c hc)).2] at hdigit
      cases hdigit

end Places

end Numeral

end MmlLookup
