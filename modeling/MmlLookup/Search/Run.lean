import MmlLookup.Search.Measure

/-!
# Running a search

The agenda is worked down line by line until a line matches exactly, a directive
needs an environment directory that is not set, or no line is left.
-/

set_option autoImplicit false

namespace MmlLookup.Search

def run (setting : Setting) (goal : Goal) (agenda : List Site) (walk : Walk) :
    Except Failure Outcome × Walk :=
  match agenda with
  | [] => (.ok .nothing, walk)
  | site :: rest =>
    match goal.sign site.text with
    | .hit definition => (.ok (.exactly (site.descriptor definition true)), walk)
    | .near definition =>
      let (outcome, after) := run setting goal rest walk
      (outcome.map (.following (site.descriptor definition false)), after)
    | .other => run setting goal rest walk
    | .silent =>
      match _h : follow setting goal site walk with
      | .error failure => (.error failure, walk)
      | .ok (ahead, after) => run setting goal (ahead ++ rest) after
termination_by ((walk.remaining setting.disk).length, followed agenda, agenda.length)
decreasing_by
  · exact pop_decreases _ _ _
  · exact pop_decreases _ _ _
  · exact follow_decreases setting goal site rest ahead walk after _h

theorem run_nil (setting : Setting) (goal : Goal) (walk : Walk) :
    run setting goal [] walk = (.ok .nothing, walk) := by rw [run]

theorem run_cons (setting : Setting) (goal : Goal) (site : Site) (rest : List Site) (walk : Walk) :
    run setting goal (site :: rest) walk =
      match goal.sign site.text with
      | .hit definition => (.ok (.exactly (site.descriptor definition true)), walk)
      | .near definition =>
        let (outcome, after) := run setting goal rest walk
        (outcome.map (.following (site.descriptor definition false)), after)
      | .other => run setting goal rest walk
      | .silent =>
        match follow setting goal site walk with
        | .error failure => (.error failure, walk)
        | .ok (ahead, after) => run setting goal (ahead ++ rest) after := by
  rw [run]
  cases goal.sign site.text with
  | silent =>
    dsimp only
    split
    · rename_i hf
      rw [hf]
    · rename_i hf
      rw [hf]
  | _ => rfl

def start (setting : Setting) (goal : Goal) (doc : Snapshot) (lines : List Nat) (shown : Text)
    (walk : Walk) : Except Failure Outcome × Walk :=
  if walk.hasEntered setting.disk.home doc.path then (.ok .nothing, walk)
  else run setting goal (sites doc lines shown) (walk.enter doc.path)

def fresh (setting : Setting) (goal : Goal) (doc : Snapshot) (lines : List Nat) (shown : Text)
    (store : Store) : Except Failure Outcome × Walk :=
  start setting goal doc lines shown ⟨store, []⟩

end MmlLookup.Search
