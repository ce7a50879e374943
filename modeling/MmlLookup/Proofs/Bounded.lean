import MmlLookup.Instrument
import MmlLookup.Proofs.Unpruned

/-!
# Searching a bounded number of lines

A search that is over after so many lines is found by recursion on that number. Closed
searches are evaluated by it, both the one that keeps what it has entered and the one
that forgets it.
-/

set_option autoImplicit false

namespace MmlLookup.Search

/-- The result of a search that enters what `before` leaves unentered, if it is over
after a number of lines. -/
def within (setting : Setting) (goal : Goal) (before : Walk → Walk) :
    Nat → List Site → Walk → Option (Except Failure Outcome × Walk)
  | 0, _, _ => none
  | _ + 1, [], walk => some (.ok .nothing, walk)
  | n + 1, site :: rest, walk =>
    match goal.sign site.text with
    | .hit definition => some (.ok (.exactly (site.descriptor definition true)), walk)
    | .near definition =>
      (within setting goal before n rest walk).map fun result =>
        (result.1.map (.following (site.descriptor definition false)), result.2)
    | .other => within setting goal before n rest walk
    | .silent =>
      match follow setting goal site (before walk) with
      | .error failure => some (.error failure, walk)
      | .ok (ahead, after) => within setting goal before n (ahead ++ rest) after

theorem run_of_within (setting : Setting) (goal : Goal) (n : Nat) (agenda : List Site)
    (walk : Walk) (result : Except Failure Outcome × Walk)
    (h : within setting goal id n agenda walk = some result) :
    run setting goal agenda walk = result := by
  induction n generalizing agenda walk result with
  | zero => cases h
  | succ n ih =>
    cases agenda with
    | nil =>
      rw [run_nil]
      exact Option.some.inj h
    | cons site rest =>
      rw [run_cons]
      rw [within] at h
      cases hs : goal.sign site.text with
      | hit definition =>
        simp only [hs] at h ⊢
        exact Option.some.inj h
      | near definition =>
        simp only [hs] at h ⊢
        obtain ⟨found, hf, rfl⟩ := Option.map_eq_some_iff.1 h
        rw [ih _ _ _ hf]
      | other =>
        simp only [hs] at h ⊢
        exact ih _ _ _ h
      | silent =>
        simp only [hs, id_eq] at h ⊢
        cases hf : follow setting goal site walk with
        | error failure =>
          simp only [hf] at h ⊢
          exact Option.some.inj h
        | ok next =>
          simp only [hf] at h ⊢
          exact ih _ _ _ h

theorem naive_of_within (setting : Setting) (goal : Goal) (n : Nat) (agenda : List Site)
    (walk : Walk) (result : Except Failure Outcome × Walk)
    (h : within setting goal (fun walk => ⟨walk.store, []⟩) n agenda walk = some result) :
    Naive setting goal agenda walk.store result.1 result.2.store := by
  induction n generalizing agenda walk result with
  | zero => cases h
  | succ n ih =>
    cases agenda with
    | nil =>
      obtain rfl := Option.some.inj h
      exact .done walk.store
    | cons site rest =>
      rw [within] at h
      cases hs : goal.sign site.text with
      | hit definition =>
        simp only [hs] at h
        obtain rfl := Option.some.inj h
        exact .hit site rest walk.store definition hs
      | near definition =>
        simp only [hs] at h
        obtain ⟨found, hf, rfl⟩ := Option.map_eq_some_iff.1 h
        exact .near site rest walk.store _ definition _ hs (ih _ _ _ hf)
      | other =>
        simp only [hs] at h
        exact .other site rest walk.store _ _ hs (ih _ _ _ h)
      | silent =>
        simp only [hs] at h
        cases hf : follow setting goal site ⟨walk.store, []⟩ with
        | error failure =>
          simp only [hf] at h
          obtain rfl := Option.some.inj h
          exact .failed site rest walk.store failure hs hf
        | ok next =>
          simp only [hf] at h
          exact .followed site rest next.1 walk.store _ next.2 _ hs hf (ih _ _ _ h)

def outcomeWithin (setting : Setting) (goal : Goal) (before : Walk → Walk) (n : Nat)
    (agenda : List Site) (walk : Walk) : Option Outcome :=
  (within setting goal before n agenda walk).bind (·.1.toOption)

theorem outcomeWithin_some (setting : Setting) (goal : Goal) (before : Walk → Walk) (n : Nat)
    (agenda : List Site) (walk : Walk) (outcome : Outcome)
    (h : outcomeWithin setting goal before n agenda walk = some outcome) :
    ∃ last, within setting goal before n agenda walk = some (.ok outcome, last) := by
  obtain ⟨⟨found, last⟩, hr, ho⟩ := Option.bind_eq_some_iff.1 h
  cases found with
  | error failure => cases ho
  | ok other =>
    obtain rfl := Option.some.inj ho
    exact ⟨last, hr⟩

theorem find_of_within {setting : Setting} {doc : Snapshot} {number top n : Nat} {store : Store}
    {result : Except Failure Outcome × Walk}
    (h : within setting (Instrument.goal number) id n (sites doc (doc.upward top) doc.stem)
      ⟨store, [doc.path]⟩ = some result) :
    Instrument.find setting doc number top ⟨store, []⟩ =
      (result.1.map (·.candidates.head?), result.2) := by
  have hrun := run_of_within _ _ _ _ _ _ h
  unfold Instrument.find start
  rw [if_neg (by simp [Walk.hasEntered])]
  simp only [Walk.enter, List.nil_append, hrun]

end MmlLookup.Search
