import MmlLookup.Directive
import MmlLookup.Proofs.Canonical

/-!
# Paths of one document

A key is one flat text, so two paths may have one key although the names on their ways
differ in their bounds. Capitals make no slash and take none away, so this can only come
from backslashes, in a path or in the working directory before it. Without these, two
paths name one document exactly if they pass the same number of names, and the same names
up to letter case. It follows that what names nothing can be put into a path, and that a
directory can be written in another way before a name is joined to it.
-/

set_option autoImplicit false

namespace MmlLookup

open Text (upperCase splitOn joinWith)

theorem Text.splitOn_append_mark (mark : Char) (front back : Text) :
    splitOn mark (front ++ mark :: back) = splitOn mark front ++ splitOn mark back := by
  induction front with
  | nil => exact splitOn_cons_self mark back
  | cons c front ih =>
    rw [List.cons_append]
    by_cases hc : c = mark
    · subst hc
      rw [splitOn_cons_self, splitOn_cons_self, ih, List.cons_append]
    · rw [splitOn_cons_ne hc, splitOn_cons_ne hc, ih]
      cases hs : splitOn mark front with
      | nil => exact absurd hs (splitOn_ne_nil mark front)
      | cons first pieces => rfl

/-- As many names, and the same at each place up to letter case. -/
structure SameNames (names others : List Text) : Prop where
  length : names.length = others.length
  each : ∀ (place : Nat) (name other : Text), names[place]? = some name →
    others[place]? = some other → upperCase name = upperCase other

theorem sameNames_iff (names others : List Text) :
    SameNames names others ↔ names.map upperCase = others.map upperCase := by
  constructor
  · intro h
    refine List.ext_getElem (by simp [h.length]) fun place hname hother => ?_
    rw [List.getElem_map, List.getElem_map]
    exact h.each place _ _ (List.getElem?_eq_getElem _) (List.getElem?_eq_getElem _)
  · intro h
    refine ⟨by simpa using congrArg List.length h, fun place name other hname hother => ?_⟩
    have hplace := congrArg (·[place]?) h
    simpa [hname, hother] using hplace

namespace Trail

variable {home trail other : Trail} {path : Path}

/-! ## Names from a key -/

/-- The names of a place from the root on, taken apart at their backslashes. -/
def parts (trail : Trail) : List Text := trail.reverse.flatMap (splitOn '\\')

theorem parts_upperCase (trail : Trail) :
    trail.parts.map upperCase = (trail.map upperCase).reverse.flatMap (splitOn '\\') := by
  have hsplit (name : Text) : splitOn '\\' (upperCase name) = (splitOn '\\' name).map upperCase :=
    Text.splitOn_upperCase rfl name
  rw [parts, List.map_flatMap, ← List.map_reverse, List.flatMap_map]
  simp only [hsplit]

theorem parts_eq_nil (h : trail.parts = []) : trail = [] := by
  cases trail with
  | nil => rfl
  | cons name trail =>
    have hnil := List.flatMap_eq_nil_iff.1 h name (by simp)
    exact absurd hnil (Text.splitOn_ne_nil _ name)

theorem key_parts (h : trail.Proper) (hne : trail ≠ []) :
    trail.key = '/' :: joinWith '/' (trail.parts.map upperCase) := by
  rw [parts, ← key_pieces h hne, Path.pieces, Text.joinWith_splitOn]
  rfl

theorem key_eq_iff (h : trail.Proper) (ho : other.Proper) :
    trail.key = other.key ↔ SameNames trail.parts other.parts := by
  rw [sameNames_iff]
  by_cases hne : trail = []
  · subst hne
    constructor
    · intro hkey
      by_cases hother : other = []
      · rw [hother]
      · exact absurd hkey.symm (key_ne_root ho hother)
    · intro hparts
      rw [parts_eq_nil (List.map_eq_nil_iff.1 hparts.symm)]
  · have hparts : trail.parts ≠ [] := fun hnil => hne (parts_eq_nil hnil)
    constructor
    · intro hkey
      have hother : other ≠ [] := by
        rintro rfl
        exact key_ne_root h hne hkey
      rw [parts, parts, ← key_pieces h hne, ← key_pieces ho hother, hkey]
    · intro hsame
      have hother : other ≠ [] := by
        rintro rfl
        exact hparts (List.map_eq_nil_iff.1 hsame)
      rw [key_parts h hne, key_parts ho hother, hsame]

theorem parts_of_forward (h : ∀ name ∈ trail, '\\' ∉ name) : trail.parts = trail.reverse := by
  have hsplit : ∀ name ∈ trail.reverse, splitOn '\\' name = [name] := fun name hn =>
    Text.splitOn_of_not_mem (h name (List.mem_reverse.1 hn))
  rw [parts, List.flatMap_def, List.map_congr_left hsplit, ← List.flatMap_def,
    List.flatMap_singleton']

theorem key_eq_iff_of_forward (h : trail.Proper) (ho : other.Proper)
    (hforward : ∀ name ∈ trail, '\\' ∉ name) (hforward' : ∀ name ∈ other, '\\' ∉ name) :
    trail.key = other.key ↔ SameNames trail other := by
  rw [key_eq_iff h ho, parts_of_forward hforward, parts_of_forward hforward', sameNames_iff,
    sameNames_iff, List.map_reverse, List.map_reverse, List.reverse_inj]

theorem key_congr (h : trail.Proper) (ho : other.Proper) (hsame : SameNames trail other) :
    trail.key = other.key := by
  rw [key_eq_iff h ho, sameNames_iff, parts_upperCase, parts_upperCase,
    (sameNames_iff _ _).1 hsame]

theorem step_congr (h : SameNames trail other) (piece : Text) :
    SameNames (trail.step piece) (other.step piece) := by
  rw [sameNames_iff] at h ⊢
  unfold Trail.step
  split
  · exact h
  · split
    · rw [List.map_tail, List.map_tail, h]
    · rw [List.map_cons, List.map_cons, h]

theorem fold_congr (h : SameNames trail other) (pieces : List Text) :
    SameNames (pieces.foldl Trail.step trail) (pieces.foldl Trail.step other) := by
  induction pieces generalizing trail other with
  | nil => exact h
  | cons piece pieces ih => exact ih (step_congr h piece)

/-! ## Paths in two parts -/

theorem start_behind (home : Trail) (front back : Path) :
    Trail.start home (front ++ '/' :: back) = Trail.start home (front ++ ['/']) := by
  cases front with
  | nil => rfl
  | cons c front => by_cases hc : c = '/' <;> simp [Trail.start, Path.isAbsolute, hc]

theorem ofPath_behind (home : Trail) (front back : Path) :
    Trail.ofPath home (front ++ '/' :: back) =
      (Path.pieces back).foldl Trail.step (Trail.ofPath home (front ++ ['/'])) := by
  unfold Trail.ofPath Path.pieces
  rw [start_behind, Text.splitOn_append_mark, Text.splitOn_append_mark, List.foldl_append,
    List.foldl_append]
  rfl

theorem ofPath_slash {directory : Path} (hne : directory ≠ []) :
    Trail.ofPath home (directory ++ ['/']) = Trail.ofPath home directory := by
  have hstart : Trail.start home (directory ++ ['/']) = Trail.start home directory := by
    cases directory with
    | nil => exact absurd rfl hne
    | cons c directory => by_cases hc : c = '/' <;> simp [Trail.start, Path.isAbsolute, hc]
  unfold Trail.ofPath Path.pieces
  rw [hstart, Text.splitOn_append_mark, List.foldl_append]
  rfl

theorem ofPath_join {directory name : Path} (hne : directory ≠ [])
    (hname : Path.isAbsolute name = false) :
    Trail.ofPath home (Path.join directory name) =
      (Path.pieces name).foldl Trail.step (Trail.ofPath home directory) := by
  have hrelative : ¬ Path.isAbsolute name = true := by simp [hname]
  rw [Path.join, if_neg hrelative]
  by_cases hlast : directory.getLast? = some '/'
  · obtain ⟨front, rfl⟩ := List.getLast?_eq_some_iff.1 hlast
    rw [if_pos (.inr hlast), List.append_assoc, List.singleton_append, ofPath_behind]
  · rw [if_neg (by simp [hne, hlast]), ofPath_behind, ofPath_slash hne]

end Trail

namespace Path

variable {home : Trail} {path padded front back : Path}

/-- Made absolute, the path has no backslash. -/
def Forward (home : Trail) (path : Path) : Prop :=
  '\\' ∉ path ∧ ∀ name ∈ Trail.start home path, '\\' ∉ name

theorem Forward.names (h : Forward home path) : ∀ name ∈ Trail.ofPath home path, '\\' ∉ name := by
  intro name hn
  rcases Trail.mem_fold _ hn with hstart | ⟨hpiece, -⟩
  · exact h.2 name hstart
  · exact fun hmem => h.1 ((Text.of_mem_splitOn hpiece).2 hmem)

/-! ## What names nothing -/

/-- A component begins between the two texts: behind a slash or where a relative path does. -/
inductive Joint : Path → Path → Prop
  | behind (front back : Path) : Joint (front ++ ['/']) back
  | opening (back : Path) : back ≠ [] → isAbsolute back = false → Joint [] back

/-- A path with any number of dots, slashes and detours put into it, each before a component.
A detour enters a name and leaves it again. -/
inductive Padded (path : Path) : Path → Prop
  | unchanged : Padded path path
  | dot (front back : Path) : Padded path (front ++ back) → Joint front back →
      Padded path (front ++ '.' :: '/' :: back)
  | slash (front back : Path) : Padded path (front ++ '/' :: back) →
      Padded path (front ++ '/' :: '/' :: back)
  | detour (front name back : Path) : Padded path (front ++ back) → Joint front back →
      IsName name → '/' ∉ name → Padded path (front ++ (name ++ '/' :: '.' :: '.' :: '/' :: back))

/-- Any text without a leading slash is followed from the same place as what it stands for. -/
theorem Joint.ofPath (h : Joint front back) (home : Trail) : ∃ place,
    Trail.ofPath home (front ++ back) = (pieces back).foldl Trail.step place ∧
      ∀ other, isAbsolute other = false →
        Trail.ofPath home (front ++ other) = (pieces other).foldl Trail.step place := by
  cases h with
  | behind front back =>
    refine ⟨Trail.ofPath home (front ++ ['/']), ?_, fun other _ => ?_⟩
    · rw [List.append_assoc, List.singleton_append, Trail.ofPath_behind]
    · rw [List.append_assoc, List.singleton_append, Trail.ofPath_behind]
  | opening back _ hback =>
    have hfrom (other : Path) (ho : isAbsolute other = false) :
        Trail.ofPath home other = (pieces other).foldl Trail.step home := by
      rw [Trail.ofPath, Trail.start, if_neg (by simp [ho])]
    exact ⟨home, hfrom back hback, hfrom⟩

theorem detour_followed {name : Text} (hname : IsName name) (hslash : '/' ∉ name) (back : Path)
    (place : Trail) :
    (pieces (name ++ '/' :: '.' :: '.' :: '/' :: back)).foldl Trail.step place =
      (pieces back).foldl Trail.step place := by
  have hdots : pieces ('.' :: '.' :: '/' :: back) = up :: pieces back :=
    Text.splitOn_append_mark '/' up back
  have hpieces : pieces (name ++ '/' :: '.' :: '.' :: '/' :: back) = name :: up :: pieces back := by
    rw [pieces, Text.splitOn_append_mark, Text.splitOn_of_not_mem hslash, List.singleton_append]
    exact congrArg (name :: ·) hdots
  have henter : place.step name = name :: place := by
    simp [Trail.step, hname.1, hname.2]
  rw [hpieces, List.foldl_cons, List.foldl_cons, henter]
  rfl

theorem isAbsolute_detour {name : Text} (hname : IsName name) (hslash : '/' ∉ name)
    (rest : Path) : isAbsolute (name ++ rest) = false := by
  cases name with
  | nil => exact absurd hname.1 (by decide)
  | cons c name =>
    have hc : c ≠ '/' := fun heq => hslash (heq ▸ List.mem_cons_self)
    simp [isAbsolute, hc]

theorem Padded.ofPath (h : Padded path padded) (home : Trail) :
    Trail.ofPath home padded = Trail.ofPath home path := by
  induction h with
  | unchanged => rfl
  | dot front back _ hjoint ih =>
    obtain ⟨place, hback, hother⟩ := hjoint.ofPath home
    have hdot : pieces ('.' :: '/' :: back) = ['.'] :: pieces back :=
      Text.splitOn_append_mark '/' ['.'] back
    rw [← ih, hback, hother _ rfl, hdot]
    rfl
  | slash front back _ ih =>
    have hslash : pieces ('/' :: back) = [] :: pieces back := Text.splitOn_cons_self '/' back
    rw [← ih, Trail.ofPath_behind home front ('/' :: back), Trail.ofPath_behind home front back,
      hslash]
    rfl
  | detour front name back _ hjoint hname hslash ih =>
    obtain ⟨place, hback, hother⟩ := hjoint.ofPath home
    rw [← ih, hback, hother _ (isAbsolute_detour hname hslash _), detour_followed hname hslash]

theorem Padded.ne_nil (h : Padded path padded) (hpath : path ≠ []) : padded ≠ [] := by
  cases h with
  | unchanged => exact hpath
  | dot | slash | detour => simp

theorem Padded.key (h : Padded path padded) (hpath : path ≠ []) (home : Trail) :
    padded.key home = path.key home := by
  rw [key_of_ne_nil hpath, key_of_ne_nil (h.ne_nil hpath), h.ofPath]

/-! ## Paths compared -/

theorem sameDocument_nil (path : Path) : sameDocument home path [] = true ↔ path = [] := by
  rw [sameDocument_iff]
  constructor
  · intro hkey
    by_cases hpath : path = []
    · exact hpath
    · rw [key_of_ne_nil hpath] at hkey
      cases hkey
  · rintro rfl
    rfl

theorem join_ne_nil {directory : Path} (hne : directory ≠ []) (name : Path) :
    join directory name ≠ [] := by
  unfold join
  split
  · rintro rfl
    contradiction
  · split <;> simp [hne]

theorem sameDocument_join (hhome : home.Proper) {directory other : Path}
    (h : Forward home directory) (ho : Forward home other)
    (hsame : sameDocument home directory other = true) (name : Path) :
    sameDocument home (join directory name) (join other name) = true := by
  by_cases hname : isAbsolute name = true
  · rw [join, join, if_pos hname, if_pos hname, sameDocument_iff]
  by_cases hother : other = []
  · subst hother
    rw [(sameDocument_nil directory).1 hsame, sameDocument_iff]
  have hdirectory : directory ≠ [] := by
    rintro rfl
    rw [sameDocument_comm] at hsame
    exact hother ((sameDocument_nil other).1 hsame)
  have hrelative := eq_false_of_ne_true hname
  rw [sameDocument_iff, key_of_ne_nil hdirectory, key_of_ne_nil hother,
    Trail.key_eq_iff_of_forward (hhome.ofPath _) (hhome.ofPath _) h.names ho.names] at hsame
  rw [sameDocument_iff, key_of_ne_nil (join_ne_nil hdirectory name),
    key_of_ne_nil (join_ne_nil hother name)]
  refine Trail.key_congr (hhome.ofPath _) (hhome.ofPath _) ?_
  rw [Trail.ofPath_join hdirectory hrelative, Trail.ofPath_join hother hrelative]
  exact Trail.fold_congr hsame (pieces name)

structure Compared (home : Trail) : Prop where
  /-- In general names are compared as they fall apart at their backslashes. -/
  parts : ∀ p q : Path, p ≠ [] → q ≠ [] →
    (sameDocument home p q = true ↔
      SameNames (Trail.ofPath home p).parts (Trail.ofPath home q).parts)
  /-- Without backslashes, in the working directory if it comes into it, they are whole. -/
  names : ∀ p q : Path, p ≠ [] → q ≠ [] → Forward home p → Forward home q →
    (sameDocument home p q = true ↔ SameNames (Trail.ofPath home p) (Trail.ofPath home q))
  padding : ∀ p padded q : Path, p ≠ [] → Padded p padded →
    sameDocument home padded q = sameDocument home p q
  targets : ∀ (environment other : Path) (directive : Directive), Forward home environment →
    Forward home other → sameDocument home environment other = true →
      sameDocument home (directive.target environment) (directive.target other) = true

theorem compared (home : Trail) (hhome : home.Proper) : Compared home := by
  refine ⟨fun p q hp hq => ?_, fun p q hp hq hfp hfq => ?_, fun p padded q hp hpadded => ?_,
    fun environment other directive he ho hsame => ?_⟩
  · rw [sameDocument_iff, key_of_ne_nil hp, key_of_ne_nil hq,
      Trail.key_eq_iff (hhome.ofPath p) (hhome.ofPath q)]
  · rw [sameDocument_iff, key_of_ne_nil hp, key_of_ne_nil hq,
      Trail.key_eq_iff_of_forward (hhome.ofPath p) (hhome.ofPath q) hfp.names hfq.names]
  · rw [sameDocument, sameDocument, hpadded.key hp]
  · cases directive with
    | bank name => exact sameDocument_join hhome he ho hsame _
    | inclusion name => exact sameDocument_join hhome he ho hsame _

/-- A sharp s is two capitals, and a name that is left again is none. -/
theorem compared_detour : Trail.Proper ["work".toList] ∧ Compared ["work".toList] ∧
    sameDocument ["work".toList] "env/../Straße".toList "STRASSE".toList = true := by
  have hhome : Trail.Proper ["work".toList] := by
    intro name hn
    rw [List.mem_singleton.1 hn]
    exact ⟨⟨rfl, by decide⟩, by decide⟩
  have h := compared ["work".toList] hhome
  refine ⟨hhome, h, ?_⟩
  -- the detour is taken out, then the two names are compared
  have hpadded : Padded "Straße".toList "env/../Straße".toList :=
    .detour [] "env".toList "Straße".toList .unchanged (.opening _ (by decide) rfl)
      ⟨rfl, by decide⟩ (by decide)
  have hforward (path : Path) (hp : '\\' ∉ path) : Forward ["work".toList] path :=
    ⟨hp, fun name hn => by rw [List.mem_singleton.1 (Trail.mem_start hn)]; decide⟩
  rw [h.padding _ _ _ (by decide) hpadded, h.names _ _ (by decide) (by decide)
    (hforward _ (by decide)) (hforward _ (by decide)), sameNames_iff]
  decide +kernel

/-- Without a backslash in the paths themselves, the one in the working directory makes one
name of two, and slashes in front of a relative path lead away from there. -/
theorem compared_elsewhere :
    let home : Trail := ["a\\b".toList]
    let up := Directive.inclusion "../x".toList
    home.Proper ∧
      (sameDocument home "x".toList "/a/b/x".toList = true ∧
        ¬ SameNames (Trail.ofPath home "x".toList) (Trail.ofPath home "/a/b/x".toList)) ∧
      (sameDocument home ".".toList "/a/b".toList = true ∧
        sameDocument home (up.target ".".toList) (up.target "/a/b".toList) = false) ∧
      sameDocument ["work".toList] "a".toList "//a".toList = false := by
  intro home up
  have hproper : home.Proper := by
    intro name hn
    rw [List.mem_singleton.1 hn]
    exact ⟨⟨rfl, by decide⟩, by decide⟩
  have hlength : ¬ SameNames (Trail.ofPath home "x".toList) (Trail.ofPath home "/a/b/x".toList) :=
    fun h => absurd h.length (by decide)
  exact ⟨hproper, ⟨by decide +kernel, hlength⟩, ⟨by decide +kernel, by decide +kernel⟩,
    by decide +kernel⟩

end Path

end MmlLookup
