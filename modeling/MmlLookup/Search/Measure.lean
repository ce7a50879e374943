import MmlLookup.Search.Basic

/-!
# Why a search ends

Every document entered can be loaded, and is entered once. So the number of known
documents not yet entered falls whenever the lines of an included document join the
agenda. The lines of a bank are not searched for directives, so they leave the
number of lines that are so searched as it was, less the line that named the bank.
-/

set_option autoImplicit false

namespace MmlLookup.Search

theorem openTarget_active (setting : Setting) (store : Store) (directive : Directive)
    (doc : Option Snapshot) (after : Store)
    (h : openTarget setting store directive = .ok (doc, after)) : after.active = store.active := by
  unfold openTarget at h
  split at h
  · cases h
  · split at h
    · cases h; rfl
    · rename_i hl
      cases h
      exact Store.load_active _ _ _ _ _ _ hl

theorem openTarget_known (setting : Setting) (store : Store) (directive : Directive)
    (doc : Snapshot) (after : Store)
    (h : openTarget setting store directive = .ok (some doc, after)) :
    doc.path.key setting.disk.home ∈ store.knownKeys setting.disk := by
  unfold openTarget at h
  split at h
  · cases h
  · split at h
    · cases h
    · rename_i hl
      cases h
      rw [Store.load_path _ _ _ _ _ _ hl]
      exact Store.load_known _ _ _ _ _ _ hl

theorem remaining_store (walk : Walk) (disk : Disk) (after : Store)
    (h : after.active = walk.store.active) :
    { walk with store := after }.remaining disk = walk.remaining disk := by
  simp only [Walk.remaining, Store.knownKeys_congr after walk.store disk h]

theorem filter_length_lt {α : Type} (p q : α → Bool) (xs : List α) (x : α)
    (hpq : ∀ y, p y → q y) (hx : x ∈ xs) (hq : q x = true) (hp : p x = false) :
    (xs.filter p).length < (xs.filter q).length := by
  induction xs with
  | nil => cases hx
  | cons y ys ih =>
    have hle : (ys.filter p).length ≤ (ys.filter q).length := by
      rw [← List.countP_eq_length_filter, ← List.countP_eq_length_filter]
      exact List.countP_mono_left fun z _ => hpq z
    rcases List.mem_cons.1 hx with rfl | hx
    · simp only [List.filter_cons, hq, hp, if_true]
      exact Nat.lt_succ_of_le hle
    · have hlt := ih hx
      cases hpy : p y with
      | true => simpa [hpy, hpq y hpy] using hlt
      | false =>
        cases hqy : q y with
        | true => simpa [hpy, hqy] using Nat.lt_succ_of_lt hlt
        | false => simpa [hpy, hqy] using hlt

theorem remaining_enter (walk : Walk) (disk : Disk) (path : Path)
    (hk : path.key disk.home ∈ walk.store.knownKeys disk)
    (hv : walk.hasEntered disk.home path = false) :
    ((walk.enter path).remaining disk).length < (walk.remaining disk).length := by
  have fresh : path.key disk.home ∉ walk.visited.map (Path.key disk.home) := by
    intro hm
    obtain ⟨entered, he, heq⟩ := List.mem_map.1 hm
    have := List.any_eq_false.1 hv entered he
    simp [Path.sameDocument, heq] at this
  refine filter_length_lt _ _ _ (path.key disk.home) ?_ hk ?_ ?_
  · intro key h
    simp only [Walk.enter, List.map_append, List.contains_eq_mem, List.mem_append] at h ⊢
    simp only [Bool.not_eq_true', decide_eq_false_iff_not, not_or] at h ⊢
    exact h.1
  · simpa using fresh
  · simp [Walk.enter]

def followed (agenda : List Site) : Nat := (agenda.filter fun site => !site.inBank).length

theorem followed_append (a b : List Site) : followed (a ++ b) = followed a + followed b := by
  simp [followed]

theorem followed_bankSites (doc : Snapshot) (shown : Text) :
    followed (bankSites doc shown) = 0 := by
  simp [followed, bankSites]

theorem followed_cons (site : Site) (rest : List Site) :
    followed (site :: rest) = (if site.inBank then 0 else 1) + followed rest := by
  cases h : site.inBank <;> simp [followed, h, Nat.add_comm]

theorem directiveOf_followed (goal : Goal) (site : Site) (directive : Directive)
    (h : directiveOf goal site = some directive) : site.inBank = false := by
  unfold directiveOf at h
  cases hb : site.inBank with
  | false => rfl
  | true => simp [hb] at h

theorem pop_decreases (n : Nat) (site : Site) (rest : List Site) :
    Prod.Lex (· < ·) (Prod.Lex (· < ·) (· < ·)) (n, followed rest, rest.length)
      (n, followed (site :: rest), (site :: rest).length) := by
  refine Prod.Lex.right _ ?_
  rw [followed_cons]
  cases site.inBank with
  | true => simpa using Prod.Lex.right (followed rest) (Nat.lt_succ_self rest.length)
  | false => exact Prod.Lex.left _ _ (by simp)

theorem bank_decreases (n : Nat) (goal : Goal) (site : Site) (rest : List Site) (doc : Snapshot)
    (shown : Text) (directive : Directive) (h : directiveOf goal site = some directive) :
    Prod.Lex (· < ·) (Prod.Lex (· < ·) (· < ·))
      (n, followed (bankSites doc shown ++ rest), (bankSites doc shown ++ rest).length)
      (n, followed (site :: rest), (site :: rest).length) := by
  refine Prod.Lex.right _ (Prod.Lex.left _ _ ?_)
  rw [followed_append, followed_bankSites, followed_cons,
    directiveOf_followed goal site directive h]
  simp

theorem follow_decreases (setting : Setting) (goal : Goal) (site : Site) (rest ahead : List Site)
    (walk after : Walk) (h : follow setting goal site walk = .ok (ahead, after)) :
    Prod.Lex (· < ·) (Prod.Lex (· < ·) (· < ·))
      ((after.remaining setting.disk).length, followed (ahead ++ rest), (ahead ++ rest).length)
      ((walk.remaining setting.disk).length, followed (site :: rest), (site :: rest).length) := by
  unfold follow at h
  split at h
  · cases h
    exact pop_decreases _ _ _
  · rename_i directive hd
    split at h
    · cases h
    · rename_i store ho
      cases h
      rw [remaining_store walk _ store (openTarget_active _ _ _ _ _ ho)]
      exact pop_decreases _ _ _
    · rename_i doc store ho
      have hs := remaining_store walk setting.disk store (openTarget_active _ _ _ _ _ ho)
      dsimp only at h
      split at h
      · cases h
        rw [hs]
        exact bank_decreases _ _ _ _ _ _ _ hd
      · split at h
        · cases h
          rw [hs]
          exact pop_decreases _ _ _
        · rename_i hv
          cases h
          -- the key entered is no longer left, however many lines come with the document
          refine Prod.Lex.left _ _ ?_
          rw [← hs]
          refine remaining_enter _ _ _ ?_ (eq_false_of_ne_true hv)
          rw [Store.knownKeys_congr store walk.store _ (openTarget_active _ _ _ _ _ ho)]
          exact openTarget_known _ _ _ _ _ ho

end MmlLookup.Search
