import MmlLookup.Directive
import MmlLookup.Proofs.Gaps
import MmlLookup.Proofs.Runs

/-!
# The grammar of directive lines

A directive is a keyword in any ASCII case, a gap and a name. The name of a bank ends where
the last `.ff` of the line begins. If that is where the gap ends, the gap's last blank is the
name, if the gap has another. The name of an included document is the rest of the line
without the blanks at its end. No other line is a directive.
-/

set_option autoImplicit false

namespace MmlLookup

namespace Text

/-- The keyword, given in lower case, stands at the place in any ASCII case. -/
def SpelledAt (keyword text : Text) (place : Nat) : Prop :=
  ((text.drop place).take keyword.length).map Char.toLower = keyword

instance (keyword text : Text) (place : Nat) : Decidable (SpelledAt keyword text place) :=
  inferInstanceAs (Decidable (_ = _))

section Keywords

variable {keyword text rest : Text} {place : Nat} {c : Char}

theorem afterKeyword_some_iff : afterKeyword keyword text = some rest ↔
    ∃ front, text = front ++ rest ∧ front.map Char.toLower = keyword := by
  induction keyword generalizing text with
  | nil => simp [afterKeyword, eq_comm]
  | cons k keyword ih =>
    cases text with
    | nil =>
      constructor
      · intro h
        cases h
      · rintro ⟨front, hjoined, hfront⟩
        rw [(List.append_eq_nil_iff.1 hjoined.symm).1] at hfront
        cases hfront
    | cons c text =>
      rw [afterKeyword]
      by_cases hc : c.toLower = k
      · rw [if_pos hc, ih]
        constructor
        · rintro ⟨front, rfl, hfront⟩
          exact ⟨c :: front, rfl, by rw [List.map_cons, hc, hfront]⟩
        · rintro ⟨front, hjoined, hfront⟩
          cases front with
          | nil => cases hfront
          | cons d front =>
            obtain ⟨-, rfl⟩ := List.cons.inj hjoined
            exact ⟨front, rfl, (List.cons.inj hfront).2⟩
      · rw [if_neg hc]
        constructor
        · intro h
          cases h
        · rintro ⟨front, hjoined, hfront⟩
          cases front with
          | nil => cases hfront
          | cons d front =>
            obtain ⟨rfl, -⟩ := List.cons.inj hjoined
            exact absurd (List.cons.inj hfront).1 hc

theorem spelledAt_zero :
    SpelledAt keyword text 0 ↔ ∃ rest, afterKeyword keyword text = some rest := by
  constructor
  · intro h
    exact ⟨text.drop keyword.length, afterKeyword_some_iff.2
      ⟨text.take keyword.length, (List.take_append_drop _ _).symm, h⟩⟩
  · rintro ⟨rest, hrest⟩
    obtain ⟨front, rfl, hfront⟩ := afterKeyword_some_iff.1 hrest
    have hlength : front.length = keyword.length := by rw [← hfront, List.length_map]
    rw [SpelledAt, List.drop_zero, List.take_left' hlength, hfront]

theorem spelledAt_succ :
    SpelledAt keyword (c :: text) (place + 1) ↔ SpelledAt keyword text place := Iff.rfl

theorem trimEnd_eq_nil_iff : trimEnd text = [] ↔ ∀ c ∈ text, isBlank c = true := by
  obtain ⟨run, rest, hjoined, hlongest⟩ := longest_exists isBlank text.reverse
  have hmem (c : Char) : c ∈ text ↔ c ∈ run ++ rest := by rw [← hjoined, List.mem_reverse]
  rw [trimEnd, hjoined, hlongest.dropWhile_eq, List.reverse_eq_nil_iff]
  constructor
  · rintro rfl c hc
    exact hlongest.inside c (by simpa using (hmem c).1 hc)
  · intro h
    cases rest with
    | nil => rfl
    | cons c rest =>
      have hblank := h c ((hmem c).2 (by simp))
      rw [hlongest.behind c rfl] at hblank
      cases hblank

end Keywords

end Text

namespace Directive

open Text (Longest)

/-! ## The name of a bank -/

def mark : Text := ['.', 'f', 'f']

structure LastMark (text : Text) (place : Nat) : Prop where
  here : Text.SpelledAt mark text place
  last : ∀ other, Text.SpelledAt mark text other → other ≤ place

/-- A bank's name: what stands before the last mark, or the gap's last blank where the mark
follows the gap at once and the gap has another blank. -/
inductive BankName (gap rest : Text) : Text → Prop
  | before (place : Nat) : 1 ≤ place → LastMark rest place → BankName gap rest (rest.take place)
  | blank (kept : Text) (blank : Char) : LastMark rest 0 → kept ≠ [] → gap = kept ++ [blank] →
      BankName gap rest [blank]

section Banks

variable {text gap rest name : Text} {place : Nat} {c : Char}

theorem not_spelledAt_nil : ¬ Text.SpelledAt mark [] place := by
  intro h
  simp [Text.SpelledAt, mark] at h

theorem lastMark_cons : LastMark (c :: text) (place + 1) ↔ LastMark text place := by
  constructor
  · rintro ⟨hhere, hlast⟩
    refine ⟨Text.spelledAt_succ.1 hhere, fun other hother => ?_⟩
    exact Nat.le_of_succ_le_succ (hlast (other + 1) (Text.spelledAt_succ.2 hother))
  · rintro ⟨hhere, hlast⟩
    refine ⟨Text.spelledAt_succ.2 hhere, fun other hother => ?_⟩
    cases other with
    | zero => exact Nat.zero_le _
    | succ other => exact Nat.succ_le_succ (hlast other (Text.spelledAt_succ.1 hother))

theorem lastMark_exists (h : Text.SpelledAt mark text place) :
    ∃ last, place ≤ last ∧ LastMark text last := by
  induction text generalizing place with
  | nil => exact absurd h not_spelledAt_nil
  | cons c text ih =>
    by_cases hrest : ∃ other, Text.SpelledAt mark text other
    · obtain ⟨other, hother⟩ := hrest
      obtain ⟨last, -, hlast⟩ := ih hother
      have hcons := lastMark_cons (c := c).2 hlast
      exact ⟨last + 1, hcons.last place h, hcons⟩
    · have hzero (other : Nat) (hother : Text.SpelledAt mark (c :: text) other) : other = 0 := by
        cases other with
        | zero => rfl
        | succ other => exact absurd ⟨other, hother⟩ hrest
      refine ⟨place, Nat.le_refl _, h, fun other hother => ?_⟩
      rw [hzero other hother]
      exact Nat.zero_le _

theorem beforeMark_unmarked (h : ∀ place, 1 ≤ place → ¬ Text.SpelledAt mark text place) :
    beforeMark text = none := by
  induction text with
  | nil => rfl
  | cons c text ih =>
    have hrest := ih fun place hplace => h (place + 1) (by omega)
    have hnone : Text.afterKeyword mark text = none := by
      refine Option.eq_none_iff_forall_ne_some.2 fun rest hrest => ?_
      exact h 1 (Nat.le_refl 1) (Text.spelledAt_zero.2 ⟨rest, hrest⟩)
    rw [beforeMark, hrest]
    split
    · rfl
    · change (Text.afterKeyword mark text).map _ = none
      rw [hnone]
      rfl

theorem beforeMark_marked (hline : '\n' ∉ text) (hplace : 1 ≤ place) (h : LastMark text place) :
    beforeMark text = some (text.take place) := by
  induction text generalizing place with
  | nil => exact absurd h.here not_spelledAt_nil
  | cons c text ih =>
    obtain ⟨place, rfl⟩ : ∃ before, place = before + 1 := ⟨place - 1, by omega⟩
    have hrest : '\n' ∉ text := fun hmem => hline (List.mem_cons_of_mem c hmem)
    have hc : c ≠ '\n' := fun heq => hline (heq ▸ List.mem_cons_self)
    have hlast := lastMark_cons.1 h
    rw [beforeMark, if_neg hc]
    by_cases hzero : place = 0
    · subst hzero
      have hnone : beforeMark text = none := by
        refine beforeMark_unmarked fun other hother hspelled => ?_
        have hle := hlast.last other hspelled
        omega
      obtain ⟨rest, hkeyword⟩ := Text.spelledAt_zero.1 hlast.here
      rw [mark] at hkeyword
      rw [hnone, hkeyword]
      rfl
    · rw [ih hrest (by omega) hlast]
      rfl

theorem beforeMark_some_iff (hline : '\n' ∉ text) : beforeMark text = some name ↔
    ∃ place, 1 ≤ place ∧ LastMark text place ∧ name = text.take place := by
  constructor
  · intro h
    by_cases hmarked : ∃ place, 1 ≤ place ∧ Text.SpelledAt mark text place
    · obtain ⟨place, hplace, hspelled⟩ := hmarked
      obtain ⟨last, hle, hlast⟩ := lastMark_exists hspelled
      rw [beforeMark_marked hline (by omega) hlast] at h
      exact ⟨last, by omega, hlast, (Option.some.inj h).symm⟩
    · have hnone : beforeMark text = none :=
        beforeMark_unmarked fun place hplace hspelled => hmarked ⟨place, hplace, hspelled⟩
      rw [hnone] at h
      cases h
  · rintro ⟨place, hplace, hlast, rfl⟩
    exact beforeMark_marked hline hplace hlast

theorem blank_ne_dot (hblank : Text.isBlank c = true) : c.toLower ≠ '.' := by
  have hall : ∀ code ∈ Text.blankCodes, (Char.ofNat code).toLower ≠ '.' := by decide
  have hcode := hall c.toNat (Text.isBlank_code hblank)
  rwa [Char.ofNat_toNat] at hcode

theorem spelledAt_behind {blanks : Text} (hblanks : ∀ c ∈ blanks, Text.isBlank c = true)
    (h : Text.SpelledAt mark (blanks ++ text) place) :
    ∃ other, place = blanks.length + other ∧ Text.SpelledAt mark text other := by
  induction blanks generalizing place with
  | nil => exact ⟨place, by simp, h⟩
  | cons c blanks ih =>
    cases place with
    | zero =>
      have hhead := congrArg List.head? h
      exact absurd (by simpa [mark] using hhead) (blank_ne_dot (hblanks c List.mem_cons_self))
    | succ place =>
      obtain ⟨other, rfl, hspelled⟩ := ih (fun d hd => hblanks d (List.mem_cons_of_mem c hd)) h
      exact ⟨other, by rw [List.length_cons]; omega, hspelled⟩

/-- A mark behind several blanks is a mark behind the last of them. -/
theorem lastEnough_beforeMark (hgap : Longest Text.isBlank gap rest) (hline : '\n' ∉ gap ++ rest) :
    Text.LastEnough beforeMark gap rest := by
  intro kept back blank hcut hnone
  refine beforeMark_unmarked fun place hplace hspelled => ?_
  have hblanks : ∀ c ∈ back ++ [blank], Text.isBlank c = true := by
    intro c hc
    apply hgap.inside
    rw [hcut]
    exact List.mem_append_right kept hc
  rw [List.append_cons] at hspelled
  obtain ⟨other, -, hother⟩ := spelledAt_behind hblanks hspelled
  obtain ⟨last, hle, hmark⟩ := lastMark_exists (Text.spelledAt_succ (c := blank).2 hother)
  rw [← List.append_assoc] at hcut
  have hread := beforeMark_marked (Text.line_behind hcut hline) (by omega) hmark
  rw [List.singleton_append, hnone] at hread
  cases hread

/-- The name is read behind the gap, with a blank of it only where the mark follows at once. -/
theorem afterBlanks_beforeMark (hgap : Longest Text.isBlank gap rest)
    (hline : '\n' ∉ gap ++ rest) :
    Text.afterBlanks beforeMark (gap ++ rest) = some name ↔ gap ≠ [] ∧ BankName gap rest name := by
  have hrest : '\n' ∉ rest := Text.line_behind (List.append_nil gap).symm hline
  rw [Text.afterBlanks_handed_iff hgap (lastEnough_beforeMark hgap hline)]
  refine and_congr_right fun _ => ?_
  constructor
  · rintro (hread | ⟨hnone, kept, blank, hkept, rfl, hread⟩)
    · obtain ⟨place, hplace, hmark, rfl⟩ := (beforeMark_some_iff hrest).1 hread
      exact .before place hplace hmark
    · have hblank : '\n' ∉ [blank] ++ rest := Text.line_behind rfl hline
      obtain ⟨place, hplace, hmark, rfl⟩ := (beforeMark_some_iff hblank).1 hread
      obtain ⟨place, rfl⟩ : ∃ before, place = before + 1 := ⟨place - 1, by omega⟩
      have hmark := lastMark_cons.1 hmark
      by_cases hzero : place = 0
      · subst hzero
        exact .blank kept blank hmark hkept rfl
      · rw [beforeMark_marked hrest (by omega) hmark] at hnone
        cases hnone
  · intro h
    cases h with
    | before place hplace hmark => exact .inl (beforeMark_marked hrest hplace hmark)
    | blank kept blank hmark hkept hcut =>
      have hnone : beforeMark rest = none := by
        refine beforeMark_unmarked fun other hother hspelled => ?_
        have hle := hmark.last other hspelled
        omega
      have hread := beforeMark_marked (Text.line_behind hcut hline) (Nat.le_refl 1)
        (lastMark_cons.2 hmark)
      exact .inr ⟨hnone, kept, blank, hkept, hcut, hread⟩

end Banks

/-! ## The name of an included document -/

section Inclusions

variable {text gap rest name : Text}

theorem includedName_some_iff (hline : '\n' ∉ text) :
    includedName text = some name ↔ Text.trimEnd text = name ∧ name ≠ [] := by
  by_cases hnil : text = []
  · subst hnil
    simp [includedName, Text.restOfLine, Text.trimEnd, eq_comm]
  · have hread := (Text.restOfLine_some_iff hline text).2 ⟨hnil, rfl⟩
    unfold includedName
    rw [hread, Option.map_some]
    cases Text.trimEnd text with
    | nil =>
      constructor
      · intro h
        cases h
      · rintro ⟨rfl, hne⟩
        exact absurd rfl hne
    | cons c trimmed =>
      constructor
      · intro h
        cases h
        exact ⟨rfl, by simp⟩
      · rintro ⟨rfl, -⟩
        rfl

theorem includedName_none_iff (hline : '\n' ∉ text) :
    includedName text = none ↔ ∀ c ∈ text, Text.isBlank c = true := by
  rw [← Text.trimEnd_eq_nil_iff, Option.eq_none_iff_forall_ne_some]
  constructor
  · intro h
    refine Classical.byContradiction fun hne => ?_
    exact h _ ((includedName_some_iff hline).2 ⟨rfl, hne⟩)
  · intro hnil name h
    obtain ⟨hname, hne⟩ := (includedName_some_iff hline).1 h
    exact hne (hname.symm.trans hnil)

theorem afterBlanks_includedName (hgap : Longest Text.isBlank gap rest)
    (hline : '\n' ∉ gap ++ rest) :
    Text.afterBlanks includedName (gap ++ rest) = some name ↔
      gap ≠ [] ∧ Text.trim (gap ++ rest) = name ∧ name ≠ [] := by
  have hrest : '\n' ∉ rest := Text.line_behind (List.append_nil gap).symm hline
  have hlast : Text.LastEnough includedName gap rest := by
    intro kept back blank hcut hnone
    have hback : '\n' ∉ back ++ blank :: rest := by
      rw [List.append_cons]
      exact Text.line_behind hcut hline
    rw [← List.append_assoc] at hcut
    rw [← List.singleton_append, includedName_none_iff (Text.line_behind hcut hline)] at hnone
    rw [includedName_none_iff hback]
    intro c hc
    rcases List.mem_append.1 hc with hc | hc
    · exact hgap.inside c (by rw [hcut]; simp [hc])
    · exact hnone c hc
  rw [Text.afterBlanks_handed_iff hgap hlast, Text.trim, Text.trimStart, hgap.dropWhile_eq,
    ← includedName_some_iff hrest]
  refine and_congr_right fun _ => or_iff_left ?_
  rintro ⟨hnone, kept, blank, -, hcut, hread⟩
  -- what follows the gap is blank, and so is it with the gap's last blank
  rw [includedName_none_iff hrest] at hnone
  have hblank : includedName (blank :: rest) = none := by
    refine (includedName_none_iff (Text.line_behind hcut hline)).2 fun c hc => ?_
    rcases List.mem_cons.1 hc with rfl | hc
    · exact hgap.inside c (by rw [hcut]; simp)
    · exact hnone c hc
  rw [hblank] at hread
  cases hread

end Inclusions

/-! ## Lines -/

def bankKeyword : Text := ['#', 'f', 'f', 'f', 'i', 'l', 'e']

def inclusionKeyword : Text := ['#', 'i', 'n', 'c', 'l', 'u', 'd', 'e']

inductive Spelled : Text → Directive → Prop
  | bank (keyword gap rest name : Text) : keyword.map Char.toLower = bankKeyword →
      gap ≠ [] → Longest Text.isBlank gap rest → BankName gap rest name →
      Spelled (keyword ++ (gap ++ rest)) (.bank name)
  | inclusion (keyword : Text) (blank : Char) (rest name : Text) :
      keyword.map Char.toLower = inclusionKeyword → Text.isBlank blank = true →
      Text.trim (blank :: rest) = name → name ≠ [] →
      Spelled (keyword ++ blank :: rest) (.inclusion name)

section Lines

variable {line name : Text} {directive : Directive}

theorem keywords_apart (keyword rest : Text)
    (hkeyword : keyword.map Char.toLower = inclusionKeyword) :
    Text.afterKeyword bankKeyword (keyword ++ rest) = none := by
  refine Option.eq_none_iff_forall_ne_some.2 fun behind hbank => ?_
  obtain ⟨front, hjoined, hfront⟩ := Text.afterKeyword_some_iff.1 hbank
  have hsecond := congrArg (fun text => (text.map Char.toLower)[1]?) hjoined
  simp only [List.map_append, hkeyword, hfront, inclusionKeyword, bankKeyword] at hsecond
  simp at hsecond

theorem parse_bank {rest : Text} (h : Text.afterKeyword bankKeyword line = some rest) :
    parse line = (Text.afterBlanks beforeMark rest).map bank := by
  rw [bankKeyword] at h
  rw [parse, h]

theorem parse_inclusion {rest : Text} (hbank : Text.afterKeyword bankKeyword line = none)
    (h : Text.afterKeyword inclusionKeyword line = some rest) :
    parse line = (Text.afterBlanks includedName rest).map inclusion := by
  rw [bankKeyword] at hbank
  rw [inclusionKeyword] at h
  rw [parse, hbank]
  dsimp only
  rw [h]

theorem parse_other (hbank : Text.afterKeyword bankKeyword line = none)
    (h : Text.afterKeyword inclusionKeyword line = none) : parse line = none := by
  rw [bankKeyword] at hbank
  rw [inclusionKeyword] at h
  rw [parse, hbank]
  dsimp only
  rw [h]

theorem spelled_of_parse (hline : '\n' ∉ line) (h : parse line = some directive) :
    Spelled line directive := by
  cases hbank : Text.afterKeyword bankKeyword line with
  | some rest =>
    obtain ⟨keyword, rfl, hkeyword⟩ := Text.afterKeyword_some_iff.1 hbank
    obtain ⟨gap, rest, rfl, hgap⟩ := Text.longest_exists Text.isBlank rest
    have hbehind : '\n' ∉ gap ++ rest := fun hmem => hline (List.mem_append_right keyword hmem)
    rw [parse_bank hbank] at h
    obtain ⟨name, hread, rfl⟩ := Option.map_eq_some_iff.1 h
    obtain ⟨hne, hname⟩ := (afterBlanks_beforeMark hgap hbehind).1 hread
    exact .bank keyword gap rest name hkeyword hne hgap hname
  | none =>
    cases hinclusion : Text.afterKeyword inclusionKeyword line with
    | some rest =>
      obtain ⟨keyword, rfl, hkeyword⟩ := Text.afterKeyword_some_iff.1 hinclusion
      obtain ⟨gap, rest, rfl, hgap⟩ := Text.longest_exists Text.isBlank rest
      have hbehind : '\n' ∉ gap ++ rest := fun hmem => hline (List.mem_append_right keyword hmem)
      rw [parse_inclusion hbank hinclusion] at h
      obtain ⟨name, hread, rfl⟩ := Option.map_eq_some_iff.1 h
      obtain ⟨hne, hname, hnamed⟩ := (afterBlanks_includedName hgap hbehind).1 hread
      cases gap with
      | nil => exact absurd rfl hne
      | cons blank gap =>
        exact .inclusion keyword blank (gap ++ rest) name hkeyword
          (hgap.inside blank List.mem_cons_self) hname hnamed
    | none =>
      rw [parse_other hbank hinclusion] at h
      cases h

theorem parse_of_spelled (hline : '\n' ∉ line) (h : Spelled line directive) :
    parse line = some directive := by
  cases h with
  | bank keyword gap rest name hkeyword hne hgap hname =>
    have hbehind : '\n' ∉ gap ++ rest := fun hmem => hline (List.mem_append_right keyword hmem)
    have hread := (afterBlanks_beforeMark hgap hbehind).2 ⟨hne, hname⟩
    rw [parse_bank (Text.afterKeyword_some_iff.2 ⟨keyword, rfl, hkeyword⟩), hread]
    rfl
  | inclusion keyword blank rest name hkeyword hblank hname hnamed =>
    have hbehind : '\n' ∉ blank :: rest := fun hmem => hline (List.mem_append_right keyword hmem)
    obtain ⟨gap, behind, hjoined, hgap⟩ := Text.longest_exists Text.isBlank (blank :: rest)
    have hne : gap ≠ [] := by
      rintro rfl
      rw [List.nil_append] at hjoined
      have hrefused := hgap.behind blank (by rw [← hjoined]; rfl)
      rw [hblank] at hrefused
      cases hrefused
    rw [hjoined] at hbehind hname
    have hread := (afterBlanks_includedName hgap hbehind).2 ⟨hne, hname, hnamed⟩
    rw [← hjoined] at hread
    rw [parse_inclusion (keywords_apart keyword _ hkeyword)
      (Text.afterKeyword_some_iff.2 ⟨keyword, rfl, hkeyword⟩), hread]
    rfl

theorem lastMark_append {text : Text} {place : Nat} (front : Text) (h : LastMark text place) :
    LastMark (front ++ text) (front.length + place) := by
  induction front with
  | nil => simpa using h
  | cons c front ih =>
    have hlength : (c :: front).length + place = front.length + place + 1 := by
      rw [List.length_cons]
      omega
    rw [List.cons_append, hlength]
    exact lastMark_cons.2 ih

/-- A bank's name goes up to the extension, whatever marks it has itself. -/
theorem parse_extension {extension : Text} (hextension : LastMark extension 0)
    (hplain : '\n' ∉ extension) (hline : '\n' ∉ name)
    (hhead : ∃ c, name.head? = some c ∧ Text.isBlank c = false) :
    parse ("#FFFile ".toList ++ (name ++ extension)) = some (.bank name) := by
  obtain ⟨c, hc, hblank⟩ := hhead
  obtain ⟨tail, rfl⟩ := List.head?_eq_some_iff.1 hc
  have hgap : Longest Text.isBlank [' '] (c :: tail ++ extension) := by
    refine Text.longest_single (by decide) fun d hd => ?_
    cases hd
    exact hblank
  have hname : BankName [' '] (c :: tail ++ extension) (c :: tail) := by
    have hmark := lastMark_append (c :: tail) hextension
    have hbefore : BankName [' '] _ _ := .before _ (by simp) hmark
    rwa [Nat.add_zero, List.take_left' rfl] at hbefore
  refine parse_of_spelled (fun hmem => ?_)
    (.bank "#FFFile".toList [' '] _ _ rfl (by decide) hgap hname)
  rcases List.mem_append.1 hmem with hmem | hmem
  · exact absurd hmem (by decide)
  · rcases List.mem_append.1 hmem with hmem | hmem
    · exact hline hmem
    · exact hplain hmem

theorem includedName_padded {blanks : Text} (hne : name ≠ []) (hline : '\n' ∉ name)
    (hlast : ∀ c, name.getLast? = some c → Text.isBlank c = false)
    (hblanks : ∀ c ∈ blanks, Text.isBlank c = true) :
    includedName (name ++ blanks) = some name := by
  -- the blanks may hold a line feed, and then only those before it are read
  obtain ⟨run, rest, rfl, hrun⟩ := Text.longest_exists (· ≠ '\n') blanks
  have hlongest : Longest (· ≠ '\n') (name ++ run) rest := by
    refine ⟨fun c hc => ?_, hrun.behind⟩
    rcases List.mem_append.1 hc with hc | hc
    · have hother : c ≠ '\n' := fun heq => hline (heq ▸ hc)
      simpa using hother
    · exact hrun.inside c hc
  have hread := Text.restOfLine_longest (by simp [hne]) hlongest
  have htrim : Text.trimEnd (name ++ run) = name :=
    Text.trimEnd_append (fun c hc => hblanks c (List.mem_append_left rest hc)) hlast
  unfold includedName
  rw [← List.append_assoc, hread, Option.map_some, htrim]
  cases name with
  | nil => exact absurd rfl hne
  | cons c name => rfl

theorem parse_padded {blanks : Text} (hne : name ≠ []) (hline : '\n' ∉ name)
    (hhead : ∀ c, name.head? = some c → Text.isBlank c = false)
    (hlast : ∀ c, name.getLast? = some c → Text.isBlank c = false)
    (hblanks : ∀ c ∈ blanks, Text.isBlank c = true) :
    parse ("#Include ".toList ++ (name ++ blanks)) = some (.inclusion name) := by
  have hgap : Longest Text.isBlank [' '] (name ++ blanks) := by
    refine Text.longest_single (by decide) fun c hc => hhead c ?_
    cases name with
    | nil => exact absurd rfl hne
    | cons d name => exact hc
  have hread : Text.afterBlanks includedName ([' '] ++ (name ++ blanks)) = some name := by
    refine (Text.afterBlanks_some_iff hgap).2 ⟨[' '], [], rfl, by simp, ?_, ?_⟩
    · exact includedName_padded hne hline hlast hblanks
    · intro passed fewer hcut hpassed
      exact absurd (List.append_eq_nil_iff.1 hcut.symm).1 hpassed
  have hkeyword : Text.afterKeyword inclusionKeyword ("#Include ".toList ++ (name ++ blanks)) =
      some ([' '] ++ (name ++ blanks)) :=
    Text.afterKeyword_some_iff.2 ⟨"#Include".toList, rfl, rfl⟩
  have hbank : Text.afterKeyword bankKeyword ("#Include ".toList ++ (name ++ blanks)) = none :=
    keywords_apart "#Include".toList ([' '] ++ (name ++ blanks)) rfl
  rw [parse_inclusion hbank hkeyword, hread]
  rfl

end Lines

theorem lastMark_only {text : Text} (hhere : Text.SpelledAt mark text 0)
    (hothers : ∀ other < text.length, Text.SpelledAt mark text other → other = 0) :
    LastMark text 0 := by
  refine ⟨hhere, fun other h => ?_⟩
  by_cases hlt : other < text.length
  · exact Nat.le_of_eq (hothers other hlt h)
  · rw [Text.SpelledAt, List.drop_eq_nil_of_le (Nat.le_of_not_lt hlt)] at h
    cases h

/-- The directives are the lines that spell them. -/
theorem parse_grammar (line : Text) (hline : '\n' ∉ line) :
    (∀ directive, parse line = some directive ↔ Spelled line directive) ∧
    (parse line = none ↔ ∀ directive, ¬ Spelled line directive) ∧
    (∀ name, '\n' ∉ name → (∃ c, name.head? = some c ∧ Text.isBlank c = false) →
      parse ("#FFFile ".toList ++ (name ++ ".FF".toList)) = some (.bank name) ∧
      parse ("#FFFile ".toList ++ (name ++ ".FFL".toList)) = some (.bank name)) ∧
    ∀ name blanks, name ≠ [] → '\n' ∉ name →
      (∀ c, name.head? = some c → Text.isBlank c = false) →
      (∀ c, name.getLast? = some c → Text.isBlank c = false) →
      (∀ c ∈ blanks, Text.isBlank c = true) →
      parse ("#Include ".toList ++ (name ++ blanks)) = some (.inclusion name) := by
  have hspelled (directive : Directive) :
      parse line = some directive ↔ Spelled line directive :=
    ⟨spelled_of_parse hline, parse_of_spelled hline⟩
  refine ⟨hspelled, ?_, ?_, ?_⟩
  · rw [Option.eq_none_iff_forall_ne_some]
    exact forall_congr' fun directive => not_congr (hspelled directive)
  · intro name hname hhead
    exact ⟨parse_extension (lastMark_only (by decide) (by decide)) (by decide) hname hhead,
      parse_extension (lastMark_only (by decide) (by decide)) (by decide) hname hhead⟩
  · intro name blanks hne hname hhead hlast hblanks
    exact parse_padded hne hname hhead hlast hblanks

/-- A mark right behind two blanks, a name with a mark of its own, and a padded name. -/
theorem parse_grammar_marked :
    '\n' ∉ "#fffile  .FF".toList ∧ Spelled "#fffile  .FF".toList (.bank [' ']) ∧
      (∀ directive, Spelled "#fffile  .FF".toList directive → directive = .bank [' ']) ∧
      parse "#FFFile a.FF.FFL".toList = some (.bank "a.FF".toList) ∧
      parse "#Include drums.mml \t".toList = some (.inclusion "drums.mml".toList) := by
  have hline : '\n' ∉ "#fffile  .FF".toList := by decide
  have hparse : parse "#fffile  .FF".toList = some (.bank [' ']) := by decide +kernel
  obtain ⟨hspelled, -, hbank, hinclusion⟩ := parse_grammar "#fffile  .FF".toList hline
  refine ⟨hline, (hspelled _).1 hparse, fun directive hdirective => ?_, ?_, ?_⟩
  · have heq := (hspelled directive).2 hdirective
    rw [hparse] at heq
    exact (Option.some.inj heq).symm
  · exact (hbank "a.FF".toList (by decide) ⟨'a', rfl, rfl⟩).2
  · have hblanks : " \t".toList.all Text.isBlank = true := by decide
    exact hinclusion "drums.mml".toList " \t".toList (by decide) (by decide)
      (fun c hc => by cases hc; rfl) (fun c hc => by cases hc; rfl) (List.all_eq_true.1 hblanks)

end Directive

end MmlLookup
