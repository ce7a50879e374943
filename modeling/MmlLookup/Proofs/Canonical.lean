import MmlLookup.Proofs.Capitals
import MmlLookup.Proofs.Loading

/-!
# The form of a key

The key of a path is meant to be an absolute path without empty and dotted pieces. It
is made in three passes: the pieces are folded, backslashes are turned into slashes, and
the whole is put in capitals. Folding comes first and only knows slashes. So a name with
a backslash in it may fall apart into pieces that nothing folds any more, and the key has
the form that is meant just if no name does. This is also when the key, taken for a path,
has itself for a key.
-/

set_option autoImplicit false

namespace MmlLookup

namespace Text

/-! ## Taking texts apart -/

theorem splitOn_cons_self (mark : Char) (text : Text) :
    splitOn mark (mark :: text) = [] :: splitOn mark text := by
  rw [splitOn]
  split
  · exact absurd ‹_› (splitOn_ne_nil mark text)
  · rw [if_pos rfl, ‹splitOn mark text = _›]

theorem splitOn_cons_ne {mark c : Char} (h : c ≠ mark) (text : Text) :
    splitOn mark (c :: text) = (splitOn mark text).modifyHead (c :: ·) := by
  rw [splitOn]
  split
  · exact absurd ‹_› (splitOn_ne_nil mark text)
  · rw [if_neg h, ‹splitOn mark text = _›]
    rfl

theorem splitOn_eq (mark : Char) (text : Text) : splitOn mark text = List.splitOn mark text := by
  rw [List.splitOn_eq_splitOnP]
  induction text with
  | nil => rfl
  | cons c rest ih =>
    rw [List.splitOnP_cons_eq_if_modifyHead, ← ih]
    by_cases h : c = mark
    · subst h
      rw [splitOn_cons_self, if_pos (beq_self_eq_true c)]
    · rw [splitOn_cons_ne h, if_neg (by simpa using h)]

theorem joinWith_eq (mark : Char) (pieces : List Text) :
    joinWith mark pieces = [mark].intercalate pieces := by
  induction pieces with
  | nil => rfl
  | cons piece pieces ih =>
    cases pieces with
    | nil => simp [joinWith]
    | cons next pieces => simp [joinWith, ih, List.intercalate_cons_cons]

theorem joinWith_splitOn (mark : Char) (text : Text) :
    joinWith mark (splitOn mark text) = text := by
  rw [joinWith_eq, splitOn_eq, List.intercalate_splitOn]

theorem splitOn_joinWith (mark : Char) {pieces : List Text} (hne : pieces ≠ [])
    (h : ∀ piece ∈ pieces, mark ∉ piece) : splitOn mark (joinWith mark pieces) = pieces := by
  rw [joinWith_eq, splitOn_eq, List.splitOn_intercalate mark h hne]

theorem of_mem_splitOn {mark : Char} {text piece : Text} (h : piece ∈ splitOn mark text) :
    mark ∉ piece ∧ piece ⊆ text := by
  induction text generalizing piece with
  | nil => simp_all [splitOn]
  | cons c rest ih =>
    by_cases hc : c = mark
    · subst hc
      rw [splitOn_cons_self, List.mem_cons] at h
      rcases h with rfl | h
      · exact ⟨List.not_mem_nil, List.nil_subset _⟩
      · exact ⟨(ih h).1, List.subset_cons_of_subset c (ih h).2⟩
    · rw [splitOn_cons_ne hc] at h
      cases hs : splitOn mark rest with
      | nil => exact absurd hs (splitOn_ne_nil mark rest)
      | cons first pieces =>
        rw [hs, List.modifyHead_cons, List.mem_cons] at h
        rcases h with rfl | h
        · obtain ⟨hmark, hsubset⟩ := ih (hs ▸ List.mem_cons_self)
          rw [List.mem_cons, not_or]
          exact ⟨⟨Ne.symm hc, hmark⟩, List.cons_subset_cons c hsubset⟩
        · obtain ⟨hmark, hsubset⟩ := ih (hs ▸ List.mem_cons_of_mem _ h)
          exact ⟨hmark, List.subset_cons_of_subset c hsubset⟩

theorem splitOn_of_not_mem {mark : Char} {text : Text} (h : mark ∉ text) :
    splitOn mark text = [text] := by
  have hsingle : ∀ piece ∈ [text], mark ∉ piece := fun piece hp => by rwa [List.mem_singleton.1 hp]
  exact splitOn_joinWith mark (List.cons_ne_nil _ _) hsingle

theorem splitOn_append {mark : Char} {front : Text} (h : mark ∉ front) (text : Text) :
    splitOn mark (front ++ text) = (splitOn mark text).modifyHead (front ++ ·) := by
  induction front with
  | nil => cases hs : splitOn mark text <;> simp [hs]
  | cons c front ih =>
    rw [List.mem_cons, not_or] at h
    rw [List.cons_append, splitOn_cons_ne (Ne.symm h.1), ih h.2]
    cases splitOn mark text <;> rfl

theorem splitOn_upperCase {mark : Char} (hm : isMark mark = true) (text : Text) :
    splitOn mark (upperCase text) = (splitOn mark text).map upperCase := by
  induction text with
  | nil => rfl
  | cons c rest ih =>
    rw [upperCase_cons]
    by_cases hc : c = mark
    · subst hc
      rw [capital_mark hm, List.singleton_append, splitOn_cons_self, splitOn_cons_self, ih]
      rfl
    · have hnot : mark ∉ capital c := fun hmem => hc (mark_of_mem hm hmem)
      rw [splitOn_append hnot, splitOn_cons_ne hc, ih]
      cases splitOn mark rest with
      | nil => rfl
      | cons first pieces => simp [upperCase_cons]

def slashed (text : Text) : Text := text.map fun c => if c = '\\' then '/' else c

theorem slashed_of_not_mem {text : Text} (h : '\\' ∉ text) : slashed text = text := by
  refine (List.map_congr_left fun c hc => ?_).trans (List.map_id text)
  exact if_neg fun (hback : c = '\\') => h (hback ▸ hc)

theorem splitOn_slashed (text : Text) :
    splitOn '/' (slashed text) = (splitOn '/' text).flatMap (splitOn '\\') := by
  induction text with
  | nil => rfl
  | cons c rest ih =>
    have hcons : slashed (c :: rest) = (if c = '\\' then '/' else c) :: slashed rest := rfl
    rw [hcons]
    cases hs : splitOn '/' rest with
    | nil => exact absurd hs (splitOn_ne_nil '/' rest)
    | cons first pieces =>
      rw [hs] at ih
      by_cases hslash : c = '/'
      · subst hslash
        rw [if_neg (by decide), splitOn_cons_self, splitOn_cons_self, ih, hs]
        rfl
      · rw [splitOn_cons_ne hslash, hs, List.modifyHead_cons, List.flatMap_cons]
        by_cases hback : c = '\\'
        · rw [if_pos hback, splitOn_cons_self, ih, hback, splitOn_cons_self]
          rfl
        · rw [if_neg hback, splitOn_cons_ne hslash, splitOn_cons_ne hback, ih, List.flatMap_cons]
          cases hfirst : splitOn '\\' first with
          | nil => exact absurd hfirst (splitOn_ne_nil _ first)
          | cons _ _ => rfl

end Text

open Text (upperCase splitOn joinWith slashed isMark)

namespace Path

def IsName (piece : Text) : Prop := isIdle piece = false ∧ piece ≠ up

/-- An absolute path of names, with forward slashes. The root has no name. -/
structure Canonical (key : Text) : Prop where
  absolute : isAbsolute key = true
  forward : '\\' ∉ key
  names : key = ['/'] ∨ ∀ piece ∈ pieces key.tail, IsName piece

/-- No name on the way falls apart at its backslashes into anything but names. -/
def Clean (home : Trail) (path : Path) : Prop :=
  ∀ name ∈ Trail.ofPath home path, ∀ piece ∈ splitOn '\\' name, IsName piece

theorem isName_iff (piece : Text) :
    IsName piece ↔ ¬ (piece = [] ∨ piece = ['.'] ∨ piece = up) := by
  simp [IsName, isIdle, and_assoc]

theorem isName_upperCase (piece : Text) : IsName (upperCase piece) ↔ IsName piece := by
  have hempty : upperCase piece = [] ↔ piece = [] := Text.upperCase_eq_marks (by simp)
  have hdot : upperCase piece = ['.'] ↔ piece = ['.'] :=
    Text.upperCase_eq_marks (by simp [isMark])
  have hup : upperCase piece = up ↔ piece = up :=
    Text.upperCase_eq_marks (by simp [up, isMark])
  rw [isName_iff, isName_iff, hempty, hdot, hup]

end Path

namespace Trail

def Proper (trail : Trail) : Prop := ∀ name ∈ trail, Path.IsName name ∧ '/' ∉ name

variable {home trail : Trail} {path : Path}

theorem mem_step {name piece : Text} (h : name ∈ trail.step piece) :
    name ∈ trail ∨ name = piece ∧ Path.IsName piece := by
  unfold Trail.step at h
  split at h
  · exact .inl h
  · split at h
    · exact .inl (List.mem_of_mem_tail h)
    · rename_i hidle hup
      rcases List.mem_cons.1 h with heq | h
      · exact .inr ⟨heq, eq_false_of_ne_true hidle, hup⟩
      · exact .inl h

theorem mem_fold {name : Text} (pieces : List Text) (h : name ∈ pieces.foldl Trail.step trail) :
    name ∈ trail ∨ name ∈ pieces ∧ Path.IsName name := by
  induction pieces generalizing trail with
  | nil => exact .inl h
  | cons piece pieces ih =>
    rcases ih h with h | ⟨h, hname⟩
    · rcases mem_step h with h | ⟨rfl, hname⟩
      · exact .inl h
      · exact .inr ⟨List.mem_cons_self, hname⟩
    · exact .inr ⟨List.mem_cons_of_mem _ h, hname⟩

theorem mem_start {name : Text} (h : name ∈ Trail.start home path) : name ∈ home := by
  unfold Trail.start at h
  split at h
  · exact absurd h List.not_mem_nil
  · exact h

theorem Proper.ofPath (h : home.Proper) (path : Path) : (Trail.ofPath home path).Proper := by
  intro name hn
  rcases mem_fold _ hn with hn | ⟨hp, hname⟩
  · exact h name (mem_start hn)
  · exact ⟨hname, (Text.of_mem_splitOn hp).1⟩

theorem fold_names (trail : Trail) (pieces : List Text) (h : ∀ piece ∈ pieces, Path.IsName piece) :
    pieces.foldl Trail.step trail = pieces.reverse ++ trail := by
  induction pieces generalizing trail with
  | nil => rfl
  | cons piece pieces ih =>
    have ⟨hidle, hup⟩ := h piece List.mem_cons_self
    have hstep : trail.step piece = piece :: trail := by
      simp [Trail.step, hidle, hup]
    rw [List.foldl_cons, hstep, ih _ fun other ho => h other (List.mem_cons_of_mem _ ho)]
    simp

theorem key_slashed (trail : Trail) :
    trail.key = '/' :: upperCase (slashed (joinWith '/' trail.reverse)) := rfl

theorem splitOn_reverse (h : trail.Proper) (hne : trail ≠ []) :
    splitOn '/' (joinWith '/' trail.reverse) = trail.reverse :=
  Text.splitOn_joinWith '/' (by simpa using hne) fun name hn => (h name (List.mem_reverse.1 hn)).2

theorem key_pieces (h : trail.Proper) (hne : trail ≠ []) :
    Path.pieces trail.key.tail =
      (trail.reverse.flatMap (splitOn '\\')).map upperCase := by
  rw [key_slashed, List.tail_cons, Path.pieces, Text.splitOn_upperCase rfl, Text.splitOn_slashed,
    splitOn_reverse h hne]

theorem key_ne_root (h : trail.Proper) (hne : trail ≠ []) : trail.key ≠ ['/'] := by
  intro hroot
  rw [key_slashed] at hroot
  have hupper : upperCase (slashed (joinWith '/' trail.reverse)) = [] :=
    List.tail_eq_of_cons_eq hroot
  have hslashed : slashed (joinWith '/' trail.reverse) = [] :=
    (Text.upperCase_eq_marks (by simp)).1 hupper
  have hjoin : joinWith '/' trail.reverse = [] := List.map_eq_nil_iff.1 hslashed
  -- only a single empty name could be left out
  have hsplit := splitOn_reverse h hne
  rw [hjoin] at hsplit
  have hempty : [] ∈ trail := List.mem_reverse.1 (hsplit ▸ List.mem_singleton_self _)
  exact absurd (h [] hempty).1.1 (by decide)

theorem key_forward (trail : Trail) : '\\' ∉ trail.key := by
  rw [key_slashed, List.mem_cons, not_or, Text.mem_upperCase_mark rfl]
  refine ⟨by decide, fun hmem => ?_⟩
  obtain ⟨c, -, hc⟩ := List.mem_map.1 hmem
  split at hc
  · exact absurd hc (by decide)
  · contradiction

end Trail

namespace Path

variable {home : Trail} {path : Path}

theorem key_of_ne_nil (hpath : path ≠ []) : path.key home = (Trail.ofPath home path).key :=
  if_neg hpath

theorem canonical_iff (hhome : home.Proper) (hpath : path ≠ []) :
    Canonical (path.key home) ↔ Clean home path := by
  rw [key_of_ne_nil hpath]
  have hproper := hhome.ofPath path
  unfold Clean
  revert hproper
  generalize Trail.ofPath home path = trail
  intro hproper
  by_cases hne : trail = []
  · subst hne
    exact ⟨fun _ name hn => absurd hn List.not_mem_nil,
      fun _ => ⟨rfl, Trail.key_forward [], .inl rfl⟩⟩
  · have hnames : (∀ piece ∈ pieces trail.key.tail, IsName piece) ↔
        ∀ name ∈ trail, ∀ piece ∈ splitOn '\\' name, IsName piece := by
      rw [Trail.key_pieces hproper hne]
      simp only [List.mem_map, List.mem_flatMap, List.mem_reverse]
      constructor
      · intro h name hn piece hp
        exact (isName_upperCase piece).1 (h _ ⟨piece, ⟨name, hn, hp⟩, rfl⟩)
      · rintro h _ ⟨piece, ⟨name, hn, hp⟩, rfl⟩
        exact (isName_upperCase piece).2 (h name hn piece hp)
    constructor
    · intro h
      exact hnames.1 (h.names.resolve_left (Trail.key_ne_root hproper hne))
    · intro h
      exact ⟨rfl, Trail.key_forward trail, .inr (hnames.2 h)⟩

theorem Canonical.key {text : Text} (h : Canonical text) (hupper : upperCase text = text)
    (home : Trail) : Path.key home text = text := by
  obtain ⟨habsolute, hforward, hnames⟩ := h
  unfold isAbsolute at habsolute
  split at habsolute
  · rename_i body
    rcases hnames with hroot | hnames
    · rw [hroot]
      rfl
    · have hpieces : pieces ('/' :: body) = [] :: splitOn '/' body :=
        Text.splitOn_cons_self '/' body
      have htrail : Trail.ofPath home ('/' :: body) = (splitOn '/' body).reverse := by
        have hfold := Trail.fold_names [] (splitOn '/' body) hnames
        rw [Trail.ofPath, hpieces, List.foldl_cons]
        exact hfold.trans (List.append_nil _)
      have hslashed : slashed body = body := Text.slashed_of_not_mem fun hmem =>
        hforward (List.mem_cons_of_mem _ hmem)
      have hbody : upperCase body = body := by
        rw [Text.upperCase_cons] at hupper
        exact List.tail_eq_of_cons_eq hupper
      rw [key_of_ne_nil (List.cons_ne_nil _ _), htrail, Trail.key_slashed, List.reverse_reverse,
        Text.joinWith_splitOn, hslashed, hbody]
  · cases habsolute

theorem upperCase_key (hpath : path ≠ []) : upperCase (path.key home) = path.key home := by
  rw [key_of_ne_nil hpath, Trail.key, Text.upperCase_upperCase]

theorem clean_of_forward (hhome : home.Proper)
    (hforward : ∀ name ∈ Trail.start home path, '\\' ∉ name) (h : '\\' ∉ path) :
    Clean home path := by
  intro name hn piece hp
  have hname : '\\' ∉ name := by
    rcases Trail.mem_fold _ hn with hn | ⟨hn, -⟩
    · exact hforward name hn
    · exact fun hmem => h ((Text.of_mem_splitOn hn).2 hmem)
  rw [Text.splitOn_of_not_mem hname, List.mem_singleton] at hp
  exact hp ▸ (hhome.ofPath path name hn).1

structure Keyed (home : Trail) (path : Path) : Prop where
  absolute : isAbsolute (path.key home) = true
  forward : '\\' ∉ path.key home
  canonical : Canonical (path.key home) ↔ Clean home path
  /-- The key, taken for a path, names the document again. -/
  again : sameDocument home (path.key home) path = true ↔ Clean home path
  plain : '\\' ∉ path → (∀ name ∈ home, '\\' ∉ name) → Clean home path

theorem keyed (home : Trail) (path : Path) (hhome : home.Proper) (hpath : path ≠ []) :
    Keyed home path := by
  have habsolute : isAbsolute (path.key home) = true := by
    rw [key_of_ne_nil hpath]
    rfl
  have hforward : '\\' ∉ path.key home := by
    rw [key_of_ne_nil hpath]
    exact Trail.key_forward _
  have hne : path.key home ≠ [] := by
    rw [key_of_ne_nil hpath]
    exact List.cons_ne_nil _ _
  refine ⟨habsolute, hforward, canonical_iff hhome hpath, ?_, fun h hhomes =>
    clean_of_forward hhome (fun name hn => hhomes name (Trail.mem_start hn)) h⟩
  rw [sameDocument_iff, ← canonical_iff hhome hpath]
  constructor
  · -- without backslashes the key is a clean path, so that its own key is canonical
    intro hagain
    have hstart : Trail.start home (path.key home) = [] := by
      rw [Trail.start, if_pos habsolute]
    have hclean : Clean home (path.key home) := by
      refine clean_of_forward hhome ?_ hforward
      rw [hstart]
      exact fun name hn => absurd hn List.not_mem_nil
    exact hagain ▸ (canonical_iff hhome hne).2 hclean
  · exact fun hcanonical => hcanonical.key (upperCase_key hpath) home

/-- A name with backslashes that hold two dots between them. -/
theorem keyed_dots : Trail.Proper ["work".toList] ∧ "/a\\..\\b".toList ≠ [] ∧
    Keyed ["work".toList] "/a\\..\\b".toList := by
  have hhome : Trail.Proper ["work".toList] := by
    intro name hn
    rw [List.mem_singleton.1 hn]
    exact ⟨⟨rfl, by decide⟩, by decide⟩
  exact ⟨hhome, by decide, keyed ["work".toList] "/a\\..\\b".toList hhome (by decide)⟩

theorem key_dots :
    key ["work".toList] "/a\\..\\b".toList = "/A/../B".toList ∧
      ¬ Canonical (key ["work".toList] "/a\\..\\b".toList) ∧
      sameDocument ["work".toList] (key ["work".toList] "/a\\..\\b".toList)
        "/a\\..\\b".toList = false := by
  have hkey : key ["work".toList] "/a\\..\\b".toList = "/A/../B".toList := by decide +kernel
  refine ⟨hkey, ?_, by decide +kernel⟩
  rw [hkey]
  intro hcanonical
  rcases hcanonical.names with hroot | hnames
  · exact absurd hroot (by decide)
  · exact (hnames up (by decide)).2 rfl

end Path

end MmlLookup
