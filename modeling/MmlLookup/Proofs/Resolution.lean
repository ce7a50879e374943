import MmlLookup.Proofs.Sweep
import MmlLookup.Variable

/-!
# How a variable is resolved

Both passes together come to one sequence of lines. The answer is its first exact
match, or else the first of its near matches with the longest definition. This holds
because the second pass is made only when the first met no exact match, and because
the near matches of the first pass come before those of the second.
-/

set_option autoImplicit false

namespace MmlLookup.Variable

open Search (Site Sweep Walk)

def Relates (token : Token) (relation : Match) (line definition : Text) : Prop :=
  ∃ key, definitionParts line = some (key, definition) ∧ key.compare token = relation

theorem definitionParts_head (line : Text) (parts : Key × Text)
    (h : definitionParts line = some parts) : ∃ rest, line = '!' :: rest := by
  unfold definitionParts at h
  split at h
  · exact ⟨_, rfl⟩
  · cases h

theorem goal_quiet (token : Token) : (goal token).Quiet := by
  intro line h
  cases hd : definitionParts line with
  | none => simp [goal, hd] at h
  | some parts =>
    obtain ⟨rest, rfl⟩ := definitionParts_head line parts hd
    simp [Directive.parse, Text.afterKeyword]

theorem sign_hit (token : Token) (line definition : Text) :
    (goal token).sign line = .hit definition ↔ Relates token .exactly line definition := by
  unfold goal Relates
  cases hd : definitionParts line with
  | none => simp [hd]
  | some parts => cases hc : parts.1.compare token <;> grind

theorem sign_near (token : Token) (line definition : Text) :
    (goal token).sign line = .near definition ↔ Relates token .nearly line definition := by
  unfold goal Relates
  cases hd : definitionParts line with
  | none => simp [hd]
  | some parts => cases hc : parts.1.compare token <;> grind

theorem hit?_some (token : Token) (site : Site) (found : Descriptor) :
    Search.hit? (goal token) site = some found ↔
      ∃ definition, Relates token .exactly site.text definition ∧
        site.descriptor definition true = found := by
  unfold Search.hit?
  cases hs : (goal token).sign site.text <;> simp [← sign_hit, hs]

theorem near?_some (token : Token) (site : Site) (found : Descriptor) :
    Search.near? (goal token) site = some found ↔
      ∃ definition, Relates token .nearly site.text definition ∧
        site.descriptor definition false = found := by
  unfold Search.near?
  cases hs : (goal token).sign site.text <;> simp [← sign_near, hs]

/-! ## The longest definition -/

theorem longest_none (candidates : List Descriptor) :
    longest candidates = none ↔ candidates = [] := by
  cases candidates with
  | nil => simp [longest]
  | cons candidate rest =>
    rw [longest]
    cases longest rest with
    | none => simp
    | some best => dsimp only; split <;> simp

theorem longest_spec (candidates : List Descriptor) (best : Descriptor)
    (h : longest candidates = some best) :
    best ∈ candidates ∧
      ∀ candidate ∈ candidates, candidate.definition.length ≤ best.definition.length := by
  induction candidates generalizing best with
  | nil => cases h
  | cons first rest ih =>
    rw [longest] at h
    cases hr : longest rest with
    | none =>
      obtain rfl := (longest_none rest).1 hr
      obtain rfl : first = best := by simpa [hr] using h
      simp
    | some other =>
      obtain ⟨hmem, hle⟩ := ih other hr
      simp only [hr] at h
      split at h
      · rename_i hlt
        obtain rfl : other = best := Option.some.inj h
        refine ⟨by simp [hmem], fun candidate hc => ?_⟩
        rcases List.mem_cons.1 hc with rfl | hc
        · exact Nat.le_of_lt hlt
        · exact hle candidate hc
      · rename_i hge
        obtain rfl : first = best := Option.some.inj h
        refine ⟨by simp, fun candidate hc => ?_⟩
        rcases List.mem_cons.1 hc with rfl | hc
        · exact Nat.le_refl _
        · exact Nat.le_trans (hle candidate hc) (Nat.le_of_not_lt hge)

def better (best : Option Descriptor) (candidate : Descriptor) : Descriptor :=
  match best with
  | none => candidate
  | some found =>
    if found.definition.length < candidate.definition.length then candidate else found

theorem longest_better (best : Option Descriptor) (candidate : Descriptor)
    (rest : List Descriptor) :
    longest (best.toList ++ candidate :: rest) = longest (better best candidate :: rest) := by
  cases best with
  | none => rfl
  | some found =>
    simp only [Option.toList_some, List.cons_append, List.nil_append, longest, better]
    cases longest rest <;> grind

theorem better_length (best : Option Descriptor) (candidate : Descriptor) :
    candidate.definition.length ≤ (better best candidate).definition.length := by
  cases best with
  | none => exact Nat.le_refl _
  | some found =>
    simp only [better]
    split <;> omega

theorem better_best_length (found candidate : Descriptor) :
    found.definition.length ≤ (better (some found) candidate).definition.length := by
  simp only [better]
  split <;> omega

/-! ## The answer of both passes -/

def verdict (token : Token) (lines : List Site) : Option Descriptor :=
  match lines.findSome? (Search.hit? (goal token)) with
  | some found => some found
  | none => longest (lines.filterMap (Search.near? (goal token)))

/-- What the outcomes of the passes above and below the anchor amount to. -/
def settle (above below : Search.Outcome) : Option Descriptor :=
  if above.shortCircuited then above.candidates.getLast?
  else if below.shortCircuited then below.candidates.getLast?
  else longest (above.candidates ++ below.candidates)

theorem settle_answers (token : Token) (above below : List Site) :
    settle (Search.answer (goal token) above) (Search.answer (goal token) below) =
      verdict token (above ++ below) := by
  unfold settle verdict
  rw [Search.answer_eq, Search.answer_eq, List.findSome?_append]
  cases above.findSome? (Search.hit? (goal token)) with
  | some found => rfl
  | none =>
    cases below.findSome? (Search.hit? (goal token)) with
    | some found => rfl
    | none => simp

section Sweeps

variable {disk : Disk} {environment : Path} {doc : Snapshot} {token : Token} {shown : Text}
  {store : Store} {above below : List Site} {middle last : Walk}

theorem candidates_of_sweep (direction : Direction) (lines : List Site)
    (h : Sweep disk environment (goal token)
      (Search.sites doc (direction.lines doc) shown) ⟨store, [doc.path]⟩ lines last) :
    Search.Ends (goal token) (candidates ⟨disk, some environment⟩ doc token shown direction
      ⟨store, []⟩) lines last :=
  Search.run_ends (goal_quiet token) h

theorem unmatched_of_uncut (goal : Search.Goal) (lines : List Site)
    (h : (Search.answer goal lines).shortCircuited = false) : Search.Unmatched goal lines := by
  rw [Search.answer_eq] at h
  rw [Search.unmatched_iff]
  cases hf : lines.findSome? (Search.hit? goal) with
  | none => rfl
  | some found => simp [hf, Search.Outcome.exactly] at h

theorem resolve_of_sweeps
    (habove : Sweep disk environment (goal token) (Search.sites doc (doc.upward 0) shown)
      ⟨store, [doc.path]⟩ above middle)
    (hbelow : Sweep disk environment (goal token) (Search.sites doc doc.downward shown)
      ⟨middle.store, [doc.path]⟩ below last) :
    (resolve ⟨disk, some environment⟩ doc token shown store).1 =
      .ok (verdict token (above ++ below)) := by
  obtain ⟨hup, hmiddle⟩ := candidates_of_sweep (.backward 0) above habove
  obtain ⟨hdown, -⟩ := candidates_of_sweep .forward below hbelow
  rw [← settle_answers]
  unfold resolve settle
  generalize candidates ⟨disk, some environment⟩ doc token shown (.backward 0) ⟨store, []⟩ =
    pass at hup hmiddle
  obtain ⟨outcome, walk⟩ := pass
  obtain rfl : outcome = _ := hup
  dsimp only at hmiddle ⊢
  cases hcut : (Search.answer (goal token) above).shortCircuited with
  | true => rfl
  | false =>
    obtain rfl : walk = middle := hmiddle (unmatched_of_uncut _ _ hcut)
    simp only [Bool.false_eq_true, if_false]
    generalize candidates ⟨disk, some environment⟩ doc token shown .forward
      ⟨walk.store, []⟩ = pass at hdown
    obtain ⟨outcome, after⟩ := pass
    obtain rfl : outcome = _ := hdown
    dsimp only
    split <;> rfl

end Sweeps

end MmlLookup.Variable
