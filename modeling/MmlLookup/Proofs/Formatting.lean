import MmlLookup.Proofs.Positional

/-!
# The shortest numeral of a value

A value is formatted without blanks, without zeros in front and with capital letters. What
is formatted is read back, also with zeros and blanks put in. It is the one shortest numeral
of its value in its radix, since a shorter run of digits stands for less and two runs of one
length for different values. So two texts are numerals of one value just if they are
formatted alike.
-/

set_option autoImplicit false

namespace MmlLookup.Numeral

/-! ## The digits of a value -/

namespace Radix

def spelling (radix : Radix) (n : Nat) : Text := (Nat.toDigits radix.base n).map Char.toUpper

def IsCapital (radix : Radix) (c : Char) : Prop := radix.isDigit c = true ∧ c.isLower = false

end Radix

section Digits

variable {radix : Radix} {c : Char} {n : Nat} {digits others : Text}

theorem capital_digitChar (radix : Radix) : ∀ digit < radix.base,
    (radix.isDigit (Nat.digitChar digit).toUpper = true ∧
      (Nat.digitChar digit).toUpper.isLower = false) ∧
    ordinal (Nat.digitChar digit).toUpper = digit := by
  cases radix <;> decide +kernel

theorem capital_ascii (radix : Radix) : ∀ code < 128,
    radix.isDigit (Char.ofNat code) = true → (Char.ofNat code).isLower = false →
      ordinal (Char.ofNat code) < radix.base ∧
        (Nat.digitChar (ordinal (Char.ofNat code))).toUpper = Char.ofNat code := by
  cases radix <;> decide +kernel

theorem Radix.IsCapital.digitChar_ordinal (h : radix.IsCapital c) :
    ordinal c < radix.base ∧ (Nat.digitChar (ordinal c)).toUpper = c := by
  have hcode := isHexDigit_ascii (isHexDigit_of_isDigit h.1)
  have hascii := capital_ascii radix c.toNat hcode
  rw [Char.ofNat_toNat] at hascii
  exact hascii h.1 h.2

theorem spelling_small (h : n < radix.base) :
    radix.spelling n = [(Nat.digitChar n).toUpper] := by
  rw [Radix.spelling, Nat.toDigits_of_lt_base h]
  rfl

theorem spelling_large (h : radix.base ≤ n) :
    radix.spelling n =
      radix.spelling (n / radix.base) ++ [(Nat.digitChar (n % radix.base)).toUpper] := by
  rw [Radix.spelling, Nat.toDigits_of_base_le radix.one_lt_base h, List.map_append]
  rfl

theorem spelling_capital (radix : Radix) (n : Nat) :
    ∀ c ∈ radix.spelling n, radix.IsCapital c := by
  have hbase := radix.one_lt_base
  induction n using Nat.strongRecOn with
  | ind n ih =>
    intro c hc
    by_cases hsmall : n < radix.base
    · rw [spelling_small hsmall, List.mem_singleton] at hc
      rw [hc]
      exact (capital_digitChar radix n hsmall).1
    · have hlarge := Nat.le_of_not_lt hsmall
      rw [spelling_large hlarge, List.mem_append, List.mem_singleton] at hc
      rcases hc with hc | rfl
      · exact ih _ (Nat.div_lt_self (by omega) hbase) c hc
      · exact (capital_digitChar radix _ (Nat.mod_lt n (by omega))).1

theorem positional_concat (base : Nat) (digits : Text) (c : Char) :
    positional base (digits ++ [c]) = ordinal c + base * positional base digits := by
  rw [positional, List.map_append, List.reverse_append]
  exact Nat.ofDigits_cons

theorem positional_spelling (radix : Radix) (n : Nat) :
    positional radix.base (radix.spelling n) = n := by
  have hbase := radix.one_lt_base
  induction n using Nat.strongRecOn with
  | ind n ih =>
    by_cases hsmall : n < radix.base
    · rw [spelling_small hsmall, positional_cons, (capital_digitChar radix n hsmall).2]
      show n * 1 + 0 = n
      omega
    · have hlast := capital_digitChar radix _ (Nat.mod_lt n (by omega))
      rw [spelling_large (Nat.le_of_not_lt hsmall), positional_concat,
        ih _ (Nat.div_lt_self (by omega) hbase), hlast.2, Nat.mod_add_div]

theorem ordinals_lt (h : ∀ c ∈ digits, radix.IsCapital c) :
    ∀ value ∈ (digits.map ordinal).reverse, value < radix.base := by
  intro value hvalue
  obtain ⟨c, hc, rfl⟩ := List.mem_map.1 (List.mem_reverse.1 hvalue)
  exact (h c hc).digitChar_ordinal.1

theorem positional_lt (h : ∀ c ∈ digits, radix.IsCapital c) :
    positional radix.base digits < radix.base ^ digits.length := by
  have hlt := Nat.ofDigits_lt_base_pow_length radix.one_lt_base (ordinals_lt h)
  rwa [List.length_reverse, List.length_map] at hlt

theorem respelled (h : ∀ c ∈ digits, radix.IsCapital c) :
    (digits.map ordinal).map (fun value => (Nat.digitChar value).toUpper) = digits := by
  have hsame : ∀ c ∈ digits,
      ((fun value => (Nat.digitChar value).toUpper) ∘ ordinal) c = id c :=
    fun c hc => (h c hc).digitChar_ordinal.2
  rw [List.map_map, List.map_congr_left hsame, List.map_id]

theorem positional_injective (h : ∀ c ∈ digits, radix.IsCapital c)
    (ho : ∀ c ∈ others, radix.IsCapital c) (hlength : digits.length = others.length)
    (hvalue : positional radix.base digits = positional radix.base others) : digits = others := by
  have hreversed := Nat.ofDigits_inj_of_len_eq radix.one_lt_base (by simpa using hlength)
    (ordinals_lt h) (ordinals_lt ho) hvalue
  rw [← respelled h, List.reverse_inj.1 hreversed, respelled ho]

theorem spelling_length_le (hne : digits ≠ []) (h : ∀ c ∈ digits, radix.IsCapital c) :
    (radix.spelling (positional radix.base digits)).length ≤ digits.length := by
  rw [Radix.spelling, List.length_map,
    Nat.length_toDigits_le_iff radix.one_lt_base (List.length_pos_iff.2 hne)]
  exact positional_lt h

end Digits

/-! ## What is formatted -/

section Formats

variable {radix : Radix} {n : Nat} {text core digits front back : Text}

theorem decimal_capital : ∀ c ∈ Nat.toDigits 10 n, c.toUpper = c := by
  have hall : ∀ code < 128, (Char.ofNat code).isDigit = true →
      (Char.ofNat code).toUpper = Char.ofNat code := by decide +kernel
  intro c hc
  have hdigit := Nat.isDigit_of_mem_toDigits (by decide) (by decide) hc
  have hcode : c.toNat < 128 := Nat.lt_of_le_of_lt (Char.isDigit_iff_toNat.1 hdigit).2 (by decide)
  have hascii := hall c.toNat hcode
  rw [Char.ofNat_toNat] at hascii
  exact hascii hdigit

theorem format_eq (radix : Radix) (n : Nat) : format radix n = radix.mark ++ radix.spelling n := by
  cases radix with
  | hexadecimal => rfl
  | decimal =>
    show Nat.toDigits 10 n = (Nat.toDigits 10 n).map Char.toUpper
    rw [List.map_congr_left (g := id) decimal_capital, List.map_id]

theorem format_spells (radix : Radix) (n : Nat) :
    Spells radix (format radix n) (radix.spelling n) where
  joined := format_eq radix n
  nonempty := by
    rw [Radix.spelling, Ne, List.map_eq_nil_iff]
    exact Nat.toDigits_ne_nil
  digits := fun c hc => (spelling_capital radix n c hc).1

def padded (radix : Radix) (count n : Nat) : Text :=
  radix.mark ++ (List.replicate count '0' ++ (format radix n).drop radix.mark.length)

theorem padded_spells (radix : Radix) (count n : Nat) :
    Spells radix (padded radix count n) (List.replicate count '0' ++ radix.spelling n) := by
  rw [padded, format_eq, List.drop_left]
  exact (format_spells radix n).padded count

theorem parse_around (h : Spells radix core digits) (hvalue : positional radix.base digits = n)
    (hlt : n < bound) (hblank : ∀ c ∈ front ++ back, Text.isBlank c = true) :
    parse (front ++ (core ++ back)) = some n :=
  (parse_positional_iff (h.stripped front back hblank) h).2 ⟨hvalue, hlt⟩

/-! ## The shortest numeral -/

/-- A numeral of the radix without small letters, perhaps with blanks around it. -/
def Radix.Writes (radix : Radix) (text : Text) : Prop :=
  ∃ core digits, Text.Stripped text core ∧ Spells radix core digits ∧
    ∀ c ∈ digits, c.isLower = false

/-- The text is a numeral of the value, and every other one of its radix is longer. -/
structure Shortest (radix : Radix) (n : Nat) (text : Text) : Prop where
  written : radix.Writes text
  parsed : parse text = some n
  least : ∀ other, radix.Writes other → parse other = some n → other ≠ text →
    text.length < other.length

theorem format_injective (radix : Radix) {m : Nat} (h : format radix m = format radix n) :
    m = n := by
  rw [format_eq, format_eq] at h
  rw [← positional_spelling radix m, List.append_cancel_left h, positional_spelling]

/-- A numeral that is no longer than the formatted value has no blanks around it and as many
digits, so it is the formatted value. -/
theorem shortest_format (radix : Radix) (h : n < bound) : Shortest radix n (format radix n) where
  written := ⟨_, _, (format_spells radix n).stripped_self, format_spells radix n,
    fun c hc => (spelling_capital radix n c hc).2⟩
  parsed := (parse_positional_iff (format_spells radix n).stripped_self (format_spells radix n)).2
    ⟨positional_spelling radix n, h⟩
  least := by
    rintro other ⟨core, digits, hstripped, hspells, hlower⟩ hparse hne
    have hcapital : ∀ c ∈ digits, radix.IsCapital c :=
      fun c hc => ⟨hspells.digits c hc, hlower c hc⟩
    obtain ⟨rfl, -⟩ := (parse_positional_iff hstripped hspells).1 hparse
    have hle := spelling_length_le hspells.nonempty hcapital
    obtain ⟨front, back, rfl, -⟩ := hstripped
    obtain rfl := hspells.joined
    rw [format_eq]
    simp only [List.length_append]
    apply Nat.lt_of_not_le
    intro hshort
    have hfront : front = [] := List.length_eq_zero_iff.1 (by omega)
    have hback : back = [] := List.length_eq_zero_iff.1 (by omega)
    have hsame : digits = radix.spelling (positional radix.base digits) :=
      positional_injective hcapital (spelling_capital radix _) (by omega)
        (positional_spelling radix _).symm
    apply hne
    rw [hfront, hback, List.nil_append, List.append_nil, format_eq, ← hsame]

end Formats

/-- A value is read back from what it is formatted as, whatever blanks are put around it and
however many zeros in front of its digits. What a numeral is formatted as is the one shortest
numeral of its value in each radix, and numerals of one value are those formatted alike. -/
theorem format_canonical (radix : Radix) :
    (∀ n count front back, n < 2 ^ 32 → (∀ c ∈ front ++ back, Text.isBlank c = true) →
      parse (front ++ (format radix n ++ back)) = some n ∧
      parse (front ++ (padded radix count n ++ back)) = some n) ∧
    ∀ text n, parse text = some n → Shortest radix n (format radix n) ∧
      ∀ other m, parse other = some m → (m = n ↔ format radix m = format radix n) := by
  constructor
  · intro n count front back hlt hblank
    have hvalue := positional_spelling radix n
    constructor
    · exact parse_around (format_spells radix n) hvalue hlt hblank
    · rw [← positional_padded radix.base count] at hvalue
      exact parse_around (padded_spells radix count n) hvalue hlt hblank
  · intro text n hparse
    obtain ⟨core, -, -, hlt⟩ := parse_iff_denotes.1 hparse
    constructor
    · exact shortest_format radix hlt
    · intro other m _
      constructor
      · intro heq
        rw [heq]
      · exact format_injective radix

/-- The largest value in capital letters, read back behind zeros and from small letters. -/
theorem format_canonical_largest :
    format .hexadecimal 4294967295 = "$FFFFFFFF".toList ∧
      parse " $000FFFFFFFF\t".toList = some 4294967295 ∧
      parse "$ffffffff".toList = some 4294967295 ∧
      Shortest .hexadecimal 4294967295 "$FFFFFFFF".toList := by
  have hformat : format .hexadecimal 4294967295 = "$FFFFFFFF".toList := by decide +kernel
  have htext : [' '] ++ (padded .hexadecimal 3 4294967295 ++ ['\t']) =
      " $000FFFFFFFF\t".toList := by decide +kernel
  have hparse : parse "$ffffffff".toList = some 4294967295 := by decide +kernel
  have hblank : ∀ c ∈ [' '] ++ ['\t'], Text.isBlank c = true :=
    List.all_eq_true.1 (by decide)
  have hpadded := ((format_canonical .hexadecimal).1 4294967295 3 [' '] ['\t'] (by decide)
    hblank).2
  have hshortest := ((format_canonical .hexadecimal).2 _ _ hparse).1
  rw [htext] at hpadded
  rw [hformat] at hshortest
  exact ⟨hformat, hpadded, hparse, hshortest⟩

end MmlLookup.Numeral
