import MmlLookup.Proofs.Runs

/-!
# The value of a digit run

A digit run is read from the left, one digit at a time, and zeros in front of it do not
change its value. Without them it is the decimal spelling of its value, so that two runs
of one value differ in leading zeros only. A text without blanks has a value as a numeral
only if it is a digit run throughout, or a dollar sign and a run of hexadecimal digits.
-/

set_option autoImplicit false

namespace MmlLookup

namespace Text

theorem trim_word {text : Text} (h : ∀ c ∈ text, isBlank c = false) : trim text = text := by
  have hfront (text : Text) (h : ∀ c ∈ text, isBlank c = false) :
      text.dropWhile isBlank = text := by
    cases text with
    | nil => rfl
    | cons c rest =>
      apply List.dropWhile_cons_of_neg
      rw [h c (by simp)]
      decide
  have hback := hfront text.reverse fun c hc => h c (List.mem_reverse.1 hc)
  rw [trim, trimStart, hfront text h, trimEnd, hback, List.reverse_reverse]

/-- The decimal spelling of a positive number goes on with the digits that follow. -/
theorem decimal_digit {value digit : Nat} (hvalue : 0 < value) (hdigit : digit < 10) :
    decimal (value * 10 + digit) = decimal value ++ [Nat.digitChar digit] := by
  have hquotient : (value * 10 + digit) / 10 = value := by omega
  have hremainder : (value * 10 + digit) % 10 = digit := by omega
  unfold decimal
  rw [Nat.toDigits_of_base_le (by decide) (by omega), hquotient, hremainder]

theorem decimal_single {digit : Nat} (hdigit : digit < 10) :
    decimal digit = [Nat.digitChar digit] := by
  exact Nat.toDigits_of_lt_base hdigit

theorem decimal_injective {m n : Nat} (h : decimal m = decimal n) : m = n := by
  have hread := congrArg (fun digits => Nat.ofDigitChars 10 digits 0) h
  simpa only [decimal, Nat.ofDigitChars_ten_toDigits] using hread

theorem digitValue_digitChar {digit : Nat} (hdigit : digit < 10) :
    digitValue 10 (Nat.digitChar digit) = some digit := by
  have hall : ∀ digit < 10, digitValue 10 (Nat.digitChar digit) = some digit := by decide
  exact hall digit hdigit

theorem digitChar_of_digitValue {c : Char} {digit : Nat} (h : digitValue 10 c = some digit) :
    digit < 10 ∧ c = Nat.digitChar digit := by
  unfold digitValue at h
  dsimp only at h
  rw [Option.filter_eq_some_iff] at h
  obtain ⟨hvalue, hlt⟩ := h
  have hdigit : digit < 10 := of_decide_eq_true hlt
  -- a letter has a value of ten or more
  have hcode : c.isDigit = true ∧ c.toNat - 48 = digit := by
    split at hvalue
    · exact ⟨‹_›, Option.some.inj hvalue⟩
    · split at hvalue
      · have heq := Option.some.inj hvalue
        omega
      · split at hvalue
        · have heq := Option.some.inj hvalue
          omega
        · cases hvalue
  obtain ⟨hascii, rfl⟩ := hcode
  have hrange : 48 ≤ c.toNat ∧ c.toNat ≤ 57 := Char.isDigit_iff_toNat.1 hascii
  have hall : ∀ digit < 10, Char.ofNat (digit + 48) = Nat.digitChar digit := by decide
  refine ⟨hdigit, ?_⟩
  rw [← hall _ hdigit, Nat.sub_add_cancel hrange.1, Char.ofNat_toNat]

end Text

namespace Numeral

section Values

variable {base value n : Nat} {text : Text}

theorem readDigits_cons {c : Char} {digit : Nat} (hdigit : Text.digitValue base c = some digit) :
    readDigits base value (c :: text) =
      if value * base + digit < bound then readDigits base (value * base + digit) text
      else none := by
  rw [readDigits, hdigit]

theorem readDigits_append (front back : Text) :
    readDigits base value (front ++ back) =
      (readDigits base value front).bind fun read => readDigits base read back := by
  induction front generalizing value with
  | nil => rfl
  | cons c front ih =>
    rw [List.cons_append, readDigits, readDigits]
    cases Text.digitValue base c with
    | none => rfl
    | some digit =>
      dsimp only
      split
      · exact ih
      · rfl

theorem readDigits_zeros (hbase : 0 < base) (text : Text) :
    readDigits base 0 (text.dropWhile (· = '0')) = readDigits base 0 text := by
  induction text with
  | nil => rfl
  | cons c text ih =>
    by_cases hzero : c = '0'
    · subst hzero
      have hdigit : Text.digitValue base '0' = some 0 := by
        simp [Text.digitValue, hbase, show Char.isDigit '0' = true from rfl]
      rw [List.dropWhile_cons_of_pos (by decide), ih, readDigits_cons hdigit]
      simp [bound]
    · rw [List.dropWhile_cons_of_neg (by simpa using hzero)]

theorem readDigits_decimal (hbound : n < bound) : readDigits 10 0 (Text.decimal n) = some n := by
  induction n using Nat.strongRecOn with
  | ind n ih =>
    by_cases hsmall : n < 10
    · rw [Text.decimal_single hsmall, readDigits_cons (Text.digitValue_digitChar hsmall)]
      simp [hbound, readDigits]
    · have hsplit : n / 10 * 10 + n % 10 = n := by omega
      have hdigit : n % 10 < 10 := by omega
      have hfront := ih (n / 10) (by omega) (by omega)
      rw [← hsplit, Text.decimal_digit (by omega) hdigit, readDigits_append, hfront,
        Option.bind_some, readDigits_cons (Text.digitValue_digitChar hdigit), hsplit,
        if_pos hbound, readDigits]

/-- What is read behind a positive value goes on with its spelling. -/
theorem decimal_of_readDigits (hvalue : 0 < value) (h : readDigits 10 value text = some n) :
    Text.decimal value ++ text = Text.decimal n := by
  induction text generalizing value with
  | nil =>
    rw [readDigits] at h
    rw [List.append_nil, Option.some.inj h]
  | cons c text ih =>
    rw [readDigits] at h
    cases hc : Text.digitValue 10 c with
    | none =>
      rw [hc] at h
      cases h
    | some digit =>
      rw [hc] at h
      obtain ⟨hdigit, rfl⟩ := Text.digitChar_of_digitValue hc
      dsimp only at h
      split at h
      · have hrest := ih (by omega) h
        rwa [Text.decimal_digit hvalue hdigit, List.append_assoc] at hrest
      · cases h

theorem readDigits_iff_decimal (hne : text ≠ []) (hzero : text.head? ≠ some '0')
    (hbound : n < bound) : readDigits 10 0 text = some n ↔ text = Text.decimal n := by
  constructor
  · intro h
    cases text with
    | nil => exact absurd rfl hne
    | cons c text =>
      rw [readDigits] at h
      cases hc : Text.digitValue 10 c with
      | none =>
        rw [hc] at h
        cases h
      | some digit =>
        rw [hc] at h
        obtain ⟨hdigit, rfl⟩ := Text.digitChar_of_digitValue hc
        have hpos : 0 < digit := by
          refine Nat.pos_of_ne_zero ?_
          rintro rfl
          exact hzero rfl
        dsimp only at h
        rw [Nat.zero_mul, Nat.zero_add] at h
        split at h
        · have hrest := decimal_of_readDigits hpos h
          rwa [Text.decimal_single hdigit] at hrest
        · cases h
  · rintro rfl
    exact readDigits_decimal hbound

end Values

/-! ## Numerals of one word -/

section Words

variable {n : Nat} {text : Text}

theorem isRun_iff (accepts : Char → Bool) (text : Text) :
    isRun accepts text = true ↔ text ≠ [] ∧ ∀ c ∈ text, accepts c = true := by
  rw [isRun, Bool.and_eq_true, Bool.not_eq_true', List.isEmpty_eq_false_iff, List.all_eq_true]

theorem digits_word (hdigits : ∀ c ∈ text, Text.isDecimalDigit c = true) :
    ∀ c ∈ text, Text.isBlank c = false := by
  intro c hc
  refine eq_false_of_ne_true fun hblank => ?_
  have hnone := (Text.isBlank_undigited hblank).1
  rw [hdigits c hc] at hnone
  cases hnone

theorem parse_dollar (digits : Text) (hword : ∀ c ∈ '$' :: digits, Text.isBlank c = false) :
    parse ('$' :: digits) =
      if isRun Text.isHexDigit digits then readDigits 16 0 digits else none := by
  unfold parse
  rw [Text.trim_word hword]
  rfl

theorem parse_plain (hword : ∀ c ∈ text, Text.isBlank c = false)
    (hdollar : text.head? ≠ some '$') :
    parse text = if isRun Text.isDecimalDigit text then readDigits 10 0 text else none := by
  unfold parse
  rw [Text.trim_word hword]
  split
  · exact absurd rfl hdollar
  · rfl

theorem parse_digits (hne : text ≠ []) (hdigits : ∀ c ∈ text, Text.isDecimalDigit c = true) :
    parse text = readDigits 10 0 text := by
  have hdollar : text.head? ≠ some '$' := by
    intro hhead
    have hdigit := hdigits '$' (List.mem_of_mem_head? hhead)
    revert hdigit
    decide
  have hrun := (isRun_iff Text.isDecimalDigit text).2 ⟨hne, hdigits⟩
  rw [parse_plain (digits_word hdigits) hdollar, if_pos hrun]

theorem parse_stands (hword : ∀ c ∈ text, Text.isBlank c = false) (h : parse text = some n) :
    Stands text 0 text.length := by
  by_cases hdollar : text.head? = some '$'
  · obtain ⟨digits, rfl⟩ := List.head?_eq_some_iff.1 hdollar
    rw [parse_dollar digits hword] at h
    split at h
    · obtain ⟨hne, hhex⟩ := (isRun_iff _ _).1 ‹_›
      have hdollar : ∀ c, ['$'].getLast? = some c → Text.isHexDigit c = false := by
        rintro c ⟨⟩
        decide
      have hrun := Text.run_behind ['$'] digits hdollar hne hhex
      rw [List.length_cons, Nat.add_comm]
      exact .hexadecimal rfl hrun
    · cases h
  · rw [parse_plain hword hdollar] at h
    split at h
    · obtain ⟨hne, hdigits⟩ := (isRun_iff _ _).1 ‹_›
      have hrun := Text.run_behind [] text (by simp) hne hdigits
      rw [List.length_nil, Nat.zero_add] at hrun
      exact .decimal hrun
    · cases h

end Words

end Numeral

end MmlLookup
