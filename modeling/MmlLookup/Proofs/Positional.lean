import Mathlib.Data.Nat.Digits.Defs
import Mathlib.Tactic.Ring
import MmlLookup.Proofs.Gaps
import MmlLookup.Proofs.Numerals

/-!
# Numerals by position

A digit counts by its place in the run it stands in, ten times or sixteen times as much as
the one behind it. Blanks at both ends set aside, a numeral is a run of digits behind the
mark of its radix, and it has the value of its run, as long as that value fits. Neither the
length of the run nor the zeros in front of it matter.
-/

set_option autoImplicit false

namespace MmlLookup

namespace Text

/-! ## Blanks at both ends -/

def Stripped (text core : Text) : Prop :=
  ∃ front back, text = front ++ (core ++ back) ∧ (∀ c ∈ front ++ back, isBlank c = true) ∧
    (∀ c, core.head? = some c → isBlank c = false) ∧
    ∀ c, core.getLast? = some c → isBlank c = false

section Stripping

variable {text core : Text}

theorem Stripped.trim_eq (h : Stripped text core) : trim text = core := by
  obtain ⟨front, back, rfl, hblank, hhead, hlast⟩ := h
  have hfront : ∀ c ∈ front, isBlank c = true := fun c hc =>
    hblank c (List.mem_append_left back hc)
  have hback : ∀ c ∈ back, isBlank c = true := fun c hc =>
    hblank c (List.mem_append_right front hc)
  have hstart : trimStart (core ++ back) = core ++ back ∨ core = [] := by
    cases core with
    | nil => exact .inr rfl
    | cons c core =>
      apply Or.inl
      apply List.dropWhile_cons_of_neg
      rw [hhead c rfl]
      decide
  rw [trim, trimStart, List.dropWhile_append_of_pos hfront]
  rcases hstart with hstart | rfl
  · show trimEnd (trimStart (core ++ back)) = core
    rw [hstart, trimEnd_append hback hlast]
  · have hnil := (⟨hback, fun c hc => by cases hc⟩ : Longest isBlank back []).dropWhile_eq
    rw [List.append_nil] at hnil
    rw [List.nil_append, hnil]
    rfl

theorem stripped_trim (text : Text) : Stripped text (trim text) := by
  obtain ⟨front, rest, rfl, hfront⟩ := longest_exists isBlank text
  obtain ⟨back, core, hrest, hback⟩ := longest_exists isBlank rest.reverse
  have htrim : trim (front ++ rest) = core.reverse := by
    rw [trim, trimStart, hfront.dropWhile_eq, trimEnd, hrest, hback.dropWhile_eq]
  have hjoined : rest = core.reverse ++ back.reverse := by
    rw [← List.reverse_append, ← hrest, List.reverse_reverse]
  rw [htrim]
  refine ⟨front, back.reverse, by rw [hjoined], fun c hc => ?_, fun c hc => ?_, fun c hc => ?_⟩
  · rw [List.mem_append, List.mem_reverse] at hc
    exact hc.elim (hfront.inside c) (hback.inside c)
  · apply hfront.behind c
    rw [hjoined, List.head?_append, hc]
    rfl
  · rw [List.getLast?_reverse] at hc
    exact hback.behind c hc

end Stripping

end Text

namespace Numeral

/-! ## Digits -/

namespace Radix

def base : Radix → Nat
  | decimal => 10
  | hexadecimal => 16

def mark : Radix → Text
  | decimal => []
  | hexadecimal => ['$']

def isDigit : Radix → Char → Bool
  | decimal => Char.isDigit
  | hexadecimal => Text.isHexDigit

theorem one_lt_base (radix : Radix) : 1 < radix.base := by
  cases radix <;> decide

end Radix

def digitOrder : Text :=
  ['0', '1', '2', '3', '4', '5', '6', '7', '8', '9', 'a', 'b', 'c', 'd', 'e', 'f']

def ordinal (c : Char) : Nat := digitOrder.idxOf c.toLower

def positional (base : Nat) (digits : Text) : Nat := Nat.ofDigits base (digits.map ordinal).reverse

theorem isHexDigit_ascii {c : Char} (h : Text.isHexDigit c = true) : c.toNat < 128 := by
  simp only [Text.isHexDigit, Bool.or_eq_true, Bool.and_eq_true, decide_eq_true_eq,
    Char.isDigit_iff_toNat, Char.le_def, UInt32.le_iff_toNat_le] at h
  rcases h with (h | h) | h
  · exact Nat.lt_of_le_of_lt h.2 (by decide)
  · exact Nat.lt_of_le_of_lt h.2 (by decide)
  · exact Nat.lt_of_le_of_lt h.2 (by decide)

theorem isHexDigit_of_isDigit {radix : Radix} {c : Char} (h : radix.isDigit c = true) :
    Text.isHexDigit c = true := by
  cases radix with
  | decimal =>
    rw [Text.isHexDigit, show c.isDigit = true from h]
    rfl
  | hexadecimal => exact h

theorem isDecimalDigit_ascii {c : Char} (h : c.toNat < 128) :
    Text.isDecimalDigit c = c.isDigit := by
  rw [Text.isDecimalDigit, if_pos h]

theorem digitValue_ascii (radix : Radix) : ∀ code < 128,
    Text.digitValue radix.base (Char.ofNat code) =
      if radix.isDigit (Char.ofNat code) then some (ordinal (Char.ofNat code)) else none := by
  cases radix <;> decide +kernel

theorem digitValue_eq (radix : Radix) (c : Char) :
    Text.digitValue radix.base c = if radix.isDigit c then some (ordinal c) else none := by
  by_cases hhex : Text.isHexDigit c = true
  · have hascii := digitValue_ascii radix c.toNat (isHexDigit_ascii hhex)
    rwa [Char.ofNat_toNat] at hascii
  · have hnone : radix.isDigit c ≠ true := fun h => hhex (isHexDigit_of_isDigit h)
    simp only [Text.isHexDigit, Bool.or_eq_true, Bool.and_eq_true, decide_eq_true_eq,
      not_or] at hhex
    obtain ⟨⟨hdigit, hsmall⟩, hcapital⟩ := hhex
    rw [if_neg hnone, Text.digitValue, if_neg hdigit, if_neg hsmall, if_neg hcapital]
    rfl

/-! ## Digit runs -/

theorem positional_cons (base : Nat) (c : Char) (digits : Text) :
    positional base (c :: digits) = ordinal c * base ^ digits.length + positional base digits := by
  rw [positional, List.map_cons, Nat.ofDigits_reverse_cons, List.length_map, Nat.mul_comm,
    Nat.add_comm]
  rfl

section Reading

variable {radix : Radix} {digits text core : Text} {value n : Nat}

/-- Reading carries the value of the digits read, which grows with every further digit. -/
theorem readDigits_iff (hvalue : value < bound) :
    readDigits radix.base value digits = some n ↔
      (∀ c ∈ digits, radix.isDigit c = true) ∧
        value * radix.base ^ digits.length + positional radix.base digits = n ∧ n < bound := by
  induction digits generalizing value with
  | nil =>
    show some value = some n ↔ _ ∧ value * 1 + 0 = n ∧ n < bound
    rw [Option.some.injEq, Nat.mul_one, Nat.add_zero]
    constructor
    · rintro rfl
      exact ⟨fun c hc => absurd hc List.not_mem_nil, rfl, hvalue⟩
    · exact fun h => h.2.1
  | cons c digits ih =>
    rw [readDigits, digitValue_eq, positional_cons, List.length_cons]
    by_cases hdigit : radix.isDigit c = true
    · have hgrown : value * radix.base ^ (digits.length + 1) +
          (ordinal c * radix.base ^ digits.length + positional radix.base digits) =
          (value * radix.base + ordinal c) * radix.base ^ digits.length +
            positional radix.base digits := by ring
      rw [if_pos hdigit, hgrown, List.forall_mem_cons]
      dsimp only
      by_cases hfits : value * radix.base + ordinal c < bound
      · rw [if_pos hfits, ih hfits]
        simp only [hdigit, true_and]
      · -- further digits do not bring the value back below the bound
        have hpow : 1 ≤ radix.base ^ digits.length :=
          Nat.one_le_pow _ _ (Nat.zero_lt_of_lt radix.one_lt_base)
        have hle := Nat.le_mul_of_pos_right (value * radix.base + ordinal c) hpow
        rw [if_neg hfits]
        constructor
        · intro h
          cases h
        · rintro ⟨-, hsum, hlt⟩
          omega
    · rw [if_neg hdigit, List.forall_mem_cons]
      constructor
      · intro h
        cases h
      · rintro ⟨⟨h, -⟩, -⟩
        exact absurd h hdigit

structure Spells (radix : Radix) (core digits : Text) : Prop where
  joined : core = radix.mark ++ digits
  nonempty : digits ≠ []
  digits : ∀ c ∈ digits, radix.isDigit c = true

/-- The text is a numeral without blanks around it, of whatever value. -/
def Denotes (core : Text) (value : Nat) : Prop :=
  ∃ radix digits, Spells radix core digits ∧ positional radix.base digits = value

theorem Spells.unblank (h : Spells radix core digits) : ∀ c ∈ core, Text.isBlank c = false := by
  intro c hc
  rw [h.joined, List.mem_append] at hc
  apply eq_false_of_ne_true
  intro hblank
  rcases hc with hmark | hdigit
  · cases radix with
    | decimal => cases hmark
    | hexadecimal =>
      rw [List.mem_singleton.1 hmark] at hblank
      revert hblank
      decide
  · have hhex := isHexDigit_of_isDigit (h.digits c hdigit)
    rw [(Text.isBlank_undigited hblank).2] at hhex
    cases hhex

theorem Spells.stripped (h : Spells radix core digits) (front back : Text)
    (hblank : ∀ c ∈ front ++ back, Text.isBlank c = true) :
    Text.Stripped (front ++ (core ++ back)) core :=
  ⟨front, back, rfl, hblank, fun c hc => h.unblank c (List.mem_of_mem_head? hc),
    fun c hc => h.unblank c (List.mem_of_getLast? hc)⟩

theorem Spells.stripped_self (h : Spells radix core digits) : Text.Stripped core core := by
  have hstripped := h.stripped [] [] (fun c hc => by cases hc)
  rwa [List.nil_append, List.append_nil] at hstripped

theorem parse_spelled (hstripped : Text.Stripped text core) (h : Spells radix core digits) :
    parse text = readDigits radix.base 0 digits := by
  have hword := h.unblank
  have hparse : parse text = parse core := by
    unfold parse
    rw [hstripped.trim_eq, Text.trim_word hword]
  obtain ⟨rfl, hne, hdigits⟩ := h
  rw [hparse]
  cases radix with
  | decimal =>
    apply parse_digits hne
    intro c hc
    rw [isDecimalDigit_ascii (isHexDigit_ascii (isHexDigit_of_isDigit (hdigits c hc)))]
    exact hdigits c hc
  | hexadecimal =>
    have hrun := (isRun_iff Text.isHexDigit digits).2 ⟨hne, hdigits⟩
    exact (parse_dollar digits hword).trans (if_pos hrun)

/-- What is read is a numeral, since other decimal digits than those of ASCII have no value. -/
theorem spelled_of_parse (h : parse text = some n) :
    ∃ radix digits, Spells radix (Text.trim text) digits := by
  rw [parse] at h
  split at h
  · rename_i digits htrim
    split at h
    · obtain ⟨hne, hdigits⟩ := (isRun_iff _ _).1 ‹_›
      exact ⟨.hexadecimal, digits, htrim, hne, hdigits⟩
    · cases h
  · split at h
    · obtain ⟨hne, -⟩ := (isRun_iff _ _).1 ‹_›
      have hdigits := ((@readDigits_iff .decimal _ 0 n (by decide)).1 h).1
      exact ⟨.decimal, _, rfl, hne, hdigits⟩
    · cases h

theorem parse_positional_iff (hstripped : Text.Stripped text core)
    (h : Spells radix core digits) :
    parse text = some n ↔ positional radix.base digits = n ∧ n < bound := by
  rw [parse_spelled hstripped h, readDigits_iff (by decide), Nat.zero_mul, Nat.zero_add]
  exact and_iff_right h.digits

theorem parse_iff_denotes :
    parse text = some n ↔ ∃ core, Text.Stripped text core ∧ Denotes core n ∧ n < bound := by
  constructor
  · intro h
    obtain ⟨radix, digits, hspells⟩ := spelled_of_parse h
    have hstripped := Text.stripped_trim text
    obtain ⟨hvalue, hlt⟩ := (parse_positional_iff hstripped hspells).1 h
    exact ⟨_, hstripped, ⟨radix, digits, hspells, hvalue⟩, hlt⟩
  · rintro ⟨core, hstripped, ⟨radix, digits, hspells, hvalue⟩, hlt⟩
    exact (parse_positional_iff hstripped hspells).2 ⟨hvalue, hlt⟩

theorem parse_foreign {c : Char} (hc : c ∈ text) (hdecimal : Text.isDecimalDigit c = true)
    (hforeign : c.isDigit = false) : parse text = none := by
  apply Option.eq_none_iff_forall_ne_some.2
  intro n hparse
  obtain ⟨radix, digits, hspells⟩ := spelled_of_parse hparse
  have hblank : Text.isBlank c ≠ true := fun hblank => by
    rw [(Text.isBlank_undigited hblank).1] at hdecimal
    cases hdecimal
  have hcode : ¬ c.toNat < 128 := fun hcode => by
    rw [isDecimalDigit_ascii hcode, hforeign] at hdecimal
    cases hdecimal
  obtain ⟨front, back, hjoined, hblanks, -⟩ := Text.stripped_trim text
  rw [hjoined, hspells.joined] at hc
  simp only [List.mem_append] at hc hblanks
  rcases hc with hfront | (hmark | hdigit) | hback
  · exact hblank (hblanks c (.inl hfront))
  · cases radix with
    | decimal => cases hmark
    | hexadecimal =>
      rw [List.mem_singleton.1 hmark] at hcode
      exact hcode (by decide)
  · exact hcode (isHexDigit_ascii (isHexDigit_of_isDigit (hspells.digits c hdigit)))
  · exact hblank (hblanks c (.inr hback))

theorem Spells.padded (h : Spells radix core digits) (count : Nat) :
    Spells radix (radix.mark ++ (List.replicate count '0' ++ digits))
      (List.replicate count '0' ++ digits) := by
  refine ⟨rfl, by simp [h.nonempty], fun c hc => ?_⟩
  rcases List.mem_append.1 hc with hzero | hdigit
  · rw [List.eq_of_mem_replicate hzero]
    cases radix <;> decide
  · exact h.digits c hdigit

theorem positional_padded (base count : Nat) (digits : Text) :
    positional base (List.replicate count '0' ++ digits) = positional base digits := by
  induction count with
  | zero => rfl
  | succ count ih =>
    have hzero : ordinal '0' = 0 := by decide
    rw [List.replicate_succ, List.cons_append, positional_cons, ih, hzero, Nat.zero_mul,
      Nat.zero_add]

end Reading

/-- The numerals are the runs of ASCII digits, and of hexadecimal digits behind a dollar sign,
whose value is below the 32nd power of two, whatever blanks stand around them and however many
zeros in front. A larger value and a digit of another script are refused. -/
theorem parse_positional (text : Text) :
    (∀ n, parse text = some n ↔
      ∃ core, Text.Stripped text core ∧ Denotes core n ∧ n < 2 ^ 32) ∧
    (∀ core value, Text.Stripped text core → Denotes core value → 2 ^ 32 ≤ value →
      parse text = none) ∧
    ((∃ c ∈ text, Text.isDecimalDigit c = true ∧ c.isDigit = false) → parse text = none) ∧
    ∀ radix core digits count, Text.Stripped text core → Spells radix core digits →
      parse (radix.mark ++ (List.replicate count '0' ++ digits)) = parse text := by
  refine ⟨fun n => parse_iff_denotes, ?_, ?_, ?_⟩
  · rintro core value hstripped ⟨radix, digits, hspells, rfl⟩ hlarge
    apply Option.eq_none_iff_forall_ne_some.2
    intro n hparse
    obtain ⟨rfl, hlt⟩ := (parse_positional_iff hstripped hspells).1 hparse
    exact absurd hlt (Nat.not_lt.2 hlarge)
  · rintro ⟨c, hc, hdecimal, hforeign⟩
    exact parse_foreign hc hdecimal hforeign
  · intro radix core digits count hstripped hspells
    have hpadded := hspells.padded count
    ext n
    rw [parse_positional_iff hpadded.stripped_self hpadded,
      parse_positional_iff hstripped hspells, positional_padded]

/-- Letters of both cases behind a zero, the first value that does not fit, and a digit of
another script. -/
theorem parse_positional_mixed :
    parse " $0fF\n".toList = some 255 ∧ Denotes "4294967296".toList (2 ^ 32) ∧
      parse "4294967296".toList = none ∧ parse "1٢".toList = none ∧
      parse "$000fF".toList = parse "$fF".toList := by
  have hletters : Spells .hexadecimal "$fF".toList ['f', 'F'] :=
    ⟨rfl, by decide, List.all_eq_true.1 (by decide)⟩
  have hzero : Spells .hexadecimal "$0fF".toList ['0', 'f', 'F'] :=
    ⟨rfl, by decide, List.all_eq_true.1 (by decide)⟩
  have hlarge : Spells .decimal "4294967296".toList "4294967296".toList :=
    ⟨rfl, by decide, List.all_eq_true.1 (by decide)⟩
  have hvalue : positional 10 "4294967296".toList = 2 ^ 32 := by decide +kernel
  have hblank : Text.Stripped " $0fF\n".toList "$0fF".toList :=
    hzero.stripped [' '] ['\n'] (List.all_eq_true.1 (by decide))
  refine ⟨?_, ⟨_, _, hlarge, hvalue⟩, ?_, ?_, ?_⟩
  · exact ((parse_positional _).1 255).2
      ⟨_, hblank, ⟨_, _, hzero, by decide +kernel⟩, by decide⟩
  · exact (parse_positional _).2.1 _ _ hlarge.stripped_self ⟨_, _, hlarge, hvalue⟩ (by decide)
  · exact (parse_positional _).2.2.1 ⟨'٢', by decide, by decide, by decide⟩
  · exact (parse_positional _).2.2.2 _ _ _ 3 hletters.stripped_self hletters

end Numeral

end MmlLookup
