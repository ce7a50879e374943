import MmlLookup.Text.UpperCase

/-!
# Capitals

Whatever a letter is capitalised to is left as it is from then on, and is neither a
slash nor a dot. So upper-casing twice is upper-casing once, and it keeps every place
at which a path is taken apart. Beyond ASCII the letters are those of two tables. The
capitals of one run lie apart from the letters of every run, which is seen from the
ends of the two runs, or from even and odd where a run takes every other code.
-/

set_option autoImplicit false

namespace MmlLookup.Text

/-- The characters that take paths apart or name nothing. -/
def isMark (c : Char) : Bool := c == '/' || c == '\\' || c == '.'

def isCapital (c : Char) : Bool := capital c == [c] && !isMark c

namespace CaseRun

def sparse (run : CaseRun) : Bool := run.stride == 2 || run.first == run.last

def apart (run other : CaseRun) : Bool :=
  Nat.blt (run.image run.last) other.first || Nat.blt other.last run.capital ||
    (run.sparse && other.sparse && (run.capital + other.first) % 2 == 1)

def single (code : Nat) : CaseRun := ⟨code, code, 1, code⟩

theorem covers_iff {run : CaseRun} {code : Nat} :
    run.covers code = true ↔
      run.first ≤ code ∧ code ≤ run.last ∧ (code - run.first) % run.stride = 0 := by
  simp [covers, and_assoc]

theorem covers_single {code : Nat} : (single code).covers code = true := by
  simp [covers, single]

theorem sparse_even {run : CaseRun} {code : Nat} (hs : run.sparse = true)
    (hc : run.covers code = true) : (code - run.first) % 2 = 0 := by
  obtain ⟨hfirst, hlast, hstride⟩ := covers_iff.1 hc
  simp only [sparse, Bool.or_eq_true, beq_iff_eq] at hs
  rcases hs with htwo | hone
  · rwa [htwo] at hstride
  · omega

theorem apart_image {run other : CaseRun} {code : Nat} (ha : run.apart other = true)
    (hc : run.covers code = true) : other.covers (run.image code) = false := by
  refine eq_false_of_ne_true fun ho => ?_
  obtain ⟨hfirst, hlast, -⟩ := covers_iff.1 hc
  obtain ⟨hfirst', hlast', -⟩ := covers_iff.1 ho
  simp only [apart, Bool.or_eq_true, Bool.and_eq_true, Nat.blt_eq, beq_iff_eq] at ha
  rcases ha with (hbelow | habove) | ⟨⟨hs, hs'⟩, hodd⟩
  · unfold image at hbelow hfirst'
    omega
  · unfold image at hlast'
    omega
  · have heven := sparse_even hs hc
    have heven' := sparse_even hs' ho
    unfold image at heven' hfirst'
    omega

end CaseRun

theorem runs_apart : (caseRuns.all fun run => caseRuns.all run.apart) = true := by
  decide +kernel

theorem expansions_apart :
    (caseRuns.all fun run => caseExpansions.all fun entry => run.apart (.single entry.1)) =
      true := by
  decide +kernel

theorem runs_ascii : ∀ run ∈ caseRuns, 0x80 ≤ run.capital ∨
    run.first = run.last ∧ isCapital (Char.ofNat run.capital) = true := by decide +kernel

theorem capital_ascii : ∀ code < 0x80, (Char.ofNat code).toUpper = Char.ofNat code ∨
    isCapital (Char.ofNat code).toUpper = true := by decide +kernel

theorem capital_expansions : ∀ entry ∈ caseExpansions,
    entry.2 ≠ [] ∧ ∀ code ∈ entry.2, isCapital (Char.ofNat code) = true := by decide +kernel

theorem isCapital_ofNat {code : Nat} (hcode : 0x80 ≤ code)
    (hexpansions : ∀ entry ∈ caseExpansions, entry.1 ≠ code)
    (hruns : ∀ run ∈ caseRuns, run.covers code = false) :
    isCapital (Char.ofNat code) = true := by
  by_cases hvalid : code.isValidChar
  · have hnat : (Char.ofNat code).toNat = code := by
      rw [Char.ofNat, dif_pos hvalid]
      rfl
    have hascii : ¬ (Char.ofNat code).toNat < 0x80 := by omega
    have hmark : isMark (Char.ofNat code) = false := by
      refine eq_false_of_ne_true fun hm => hascii ?_
      simp only [isMark, Bool.or_eq_true, beq_iff_eq] at hm
      rcases hm with (hm | hm) | hm <;> rw [hm] <;> decide
    have hexpand : caseExpansions.find? (·.1 == (Char.ofNat code).toNat) = none := by
      rw [hnat, List.find?_eq_none]
      exact fun entry he heq => hexpansions entry he (beq_iff_eq.1 heq)
    have hrun : caseRuns.find? (·.covers (Char.ofNat code).toNat) = none := by
      rw [hnat, List.find?_eq_none]
      exact fun run hr => by simp [hruns run hr]
    simp only [isCapital, capital, if_neg hascii, hexpand, hrun, hmark, beq_self_eq_true,
      Bool.not_false, Bool.and_self]
  · -- no character has the code
    rw [Char.ofNat, dif_neg hvalid]
    rfl

theorem isCapital_image {run : CaseRun} (hr : run ∈ caseRuns) {code : Nat}
    (hc : run.covers code = true) : isCapital (Char.ofNat (run.image code)) = true := by
  rcases runs_ascii run hr with hcapital | ⟨hsingle, hcapital⟩
  · refine isCapital_ofNat ?_ ?_ ?_
    · unfold CaseRun.image
      omega
    · intro entry he heq
      have hfalse := CaseRun.apart_image
        (List.all_eq_true.1 (List.all_eq_true.1 expansions_apart run hr) entry he) hc
      rw [← heq, CaseRun.covers_single] at hfalse
      cases hfalse
    · exact fun other ho =>
        CaseRun.apart_image (List.all_eq_true.1 (List.all_eq_true.1 runs_apart run hr) other ho) hc
  · obtain ⟨hfirst, hlast, -⟩ := CaseRun.covers_iff.1 hc
    have himage : run.image code = run.capital := by
      unfold CaseRun.image
      omega
    rwa [himage]

theorem capital_cases (c : Char) :
    capital c = [c] ∨ capital c ≠ [] ∧ ∀ d ∈ capital c, isCapital d = true := by
  unfold capital
  split
  · rename_i hascii
    rcases capital_ascii c.toNat hascii with heq | hcapital
    · rw [Char.ofNat_toNat] at heq
      exact .inl (congrArg (fun d => [d]) heq)
    · rw [Char.ofNat_toNat] at hcapital
      exact .inr ⟨List.cons_ne_nil _ _, fun d hd => by rwa [List.mem_singleton.1 hd]⟩
  · split
    · rename_i codes hfound
      obtain ⟨hne, hcodes⟩ := capital_expansions _ (List.mem_of_find?_eq_some hfound)
      refine .inr ⟨fun hnil => hne (List.map_eq_nil_iff.1 hnil), fun d hd => ?_⟩
      obtain ⟨code, hcode, rfl⟩ := List.mem_map.1 hd
      exact hcodes code hcode
    · split
      · rename_i run hfound
        have hcovers : run.covers c.toNat = true := by simpa using List.find?_some hfound
        have hcapital := isCapital_image (List.mem_of_find?_eq_some hfound) hcovers
        exact .inr ⟨List.cons_ne_nil _ _, fun d hd => by rwa [List.mem_singleton.1 hd]⟩
      · exact .inl rfl

theorem capital_ne_nil (c : Char) : capital c ≠ [] := by
  rcases capital_cases c with heq | ⟨hne, -⟩
  · rw [heq]
    exact List.cons_ne_nil _ _
  · exact hne

theorem capital_of_mem {c d : Char} (h : d ∈ capital c) : capital d = [d] := by
  rcases capital_cases c with heq | ⟨-, hall⟩
  · rw [heq, List.mem_singleton] at h
    rwa [h]
  · have hd := hall d h
    simp only [isCapital, Bool.and_eq_true, beq_iff_eq] at hd
    exact hd.1

theorem mark_of_mem {c m : Char} (hm : isMark m = true) (h : m ∈ capital c) : c = m := by
  rcases capital_cases c with heq | ⟨-, hall⟩
  · rw [heq, List.mem_singleton] at h
    exact h.symm
  · have hd := hall m h
    simp [isCapital, hm] at hd

theorem capital_mark {m : Char} (hm : isMark m = true) : capital m = [m] := by
  simp only [isMark, Bool.or_eq_true, beq_iff_eq] at hm
  rcases hm with (rfl | rfl) | rfl <;> rfl

theorem upperCase_cons (c : Char) (text : Text) :
    upperCase (c :: text) = capital c ++ upperCase text := List.flatMap_cons

theorem upperCase_upperCase (text : Text) : upperCase (upperCase text) = upperCase text := by
  have hfixed : ∀ part : Text, (∀ d ∈ part, capital d = [d]) → upperCase part = part := by
    intro part hpart
    induction part with
    | nil => rfl
    | cons d part ih =>
      rw [upperCase_cons, hpart d (List.mem_cons_self), ih fun e he =>
        hpart e (List.mem_cons_of_mem _ he)]
      rfl
  apply hfixed
  intro d hd
  obtain ⟨c, -, hc⟩ := List.mem_flatMap.1 hd
  exact capital_of_mem hc

theorem mem_upperCase_mark {m : Char} (hm : isMark m = true) (text : Text) :
    m ∈ upperCase text ↔ m ∈ text := by
  constructor
  · intro h
    obtain ⟨c, hc, hmem⟩ := List.mem_flatMap.1 h
    rwa [← mark_of_mem hm hmem]
  · intro h
    exact List.mem_flatMap.2 ⟨m, h, by rw [capital_mark hm]; exact List.mem_singleton_self m⟩

/-- A text of marks is upper-cased from itself only. -/
theorem upperCase_eq_marks {text marks : Text} (hm : ∀ m ∈ marks, isMark m = true) :
    upperCase text = marks ↔ text = marks := by
  induction marks generalizing text with
  | nil =>
    cases text with
    | nil => exact ⟨fun _ => rfl, fun _ => rfl⟩
    | cons c rest => simp [upperCase_cons, capital_ne_nil]
  | cons m marks ih =>
    have hmark := hm m List.mem_cons_self
    have ih := @ih
    cases text with
    | nil => simp [upperCase]
    | cons c rest =>
      rw [upperCase_cons]
      constructor
      · intro h
        have hmem : m ∈ capital c := by
          cases hc : capital c with
          | nil => exact absurd hc (capital_ne_nil c)
          | cons d more =>
            rw [hc] at h
            rw [← List.head_eq_of_cons_eq h]
            exact List.mem_cons_self
        obtain rfl := mark_of_mem hmark hmem
        rw [capital_mark hmark] at h
        have hrest :=
          (ih fun n hn => hm n (List.mem_cons_of_mem _ hn)).1 (List.tail_eq_of_cons_eq h)
        rw [hrest]
      · intro h
        cases h
        rw [capital_mark hmark, (ih fun n hn => hm n (List.mem_cons_of_mem _ hn)).2 rfl]
        rfl

end MmlLookup.Text
