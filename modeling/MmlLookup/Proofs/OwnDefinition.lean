import MmlLookup.Proofs.Asking
import MmlLookup.Proofs.Segments
import MmlLookup.Proofs.VariableSearch

/-!
# A reference and its own definition

A variable is defined by a line that begins with its mark and its body, and is referred to
by the same mark and body elsewhere. The body is split into a numeral or a name on either
side, by different readers, and both split it alike. So a reference that names anything
matches the line that defines it exactly, and a document with such a line answers the
reference.
-/

set_option autoImplicit false

namespace MmlLookup

/-- The text begins with digits that have no value, as many as there are. -/
def Numeral.Unread (text : Text) : Prop :=
  ∃ stop, Numeral.Stands text 0 stop ∧ Numeral.parse (text.take stop) = none

namespace Variable

/-- A line that defines a variable under a body: the mark and the body, alone or with a
blank and any text behind it. -/
inductive DefinitionOf (body : Text) : Text → Prop
  | alone : DefinitionOf body ('!' :: body)
  | followed (blank : Char) (text : Text) : Text.isBlank blank = true → '\n' ∉ text →
      DefinitionOf body ('!' :: (body ++ blank :: text))

section Parts

variable {body line : Text} {stop : Nat}

theorem DefinitionOf.tail (h : DefinitionOf body line) :
    ∃ tail, line = '!' :: (body ++ tail) ∧ ∀ c, tail[0]? = some c → Text.isBlank c = true := by
  cases h with
  | alone => exact ⟨[], by rw [List.append_nil], fun c hc => by cases hc⟩
  | followed blank text hblank _ =>
    refine ⟨blank :: text, rfl, fun c hc => ?_⟩
    cases hc
    exact hblank

theorem DefinitionOf.numeral (h : DefinitionOf body line) (hstands : Numeral.Stands body 0 stop) :
    ∃ text, definitionParts line = some (.numeral (body.take stop), text) := by
  obtain ⟨tail, rfl, htail⟩ := h.tail
  have hleading := (hstands.append htail).leading_eq
  have htake : (body ++ tail).extract 0 stop = body.take stop := by
    rw [List.extract, List.drop_zero, Nat.sub_zero, List.take_append_of_le_length hstands.within]
  rw [List.drop_zero, htake] at hleading
  rw [definitionParts, hleading]
  exact ⟨_, rfl⟩

theorem DefinitionOf.name (h : DefinitionOf body line) (hne : body ≠ [])
    (hword : ∀ c ∈ body, Text.isBlank c = false) (hname : ¬ Numeral.Begins body 0) :
    ∃ text, definitionParts line = some (.name body, text) := by
  obtain ⟨tail, rfl, htail⟩ := h.tail
  have hpos : 0 < body.length := List.length_pos_iff.2 hne
  have hnone : ¬ Numeral.Begins (body ++ tail) 0 := fun hbegins =>
    hname (hbegins.of_append hpos htail)
  have hleading := Numeral.leading_eq_none hnone
  have hrun : Text.Run (fun c => !Text.isBlank c) (body ++ tail) 0 body.length := by
    refine Text.Run.append ⟨Text.edge_zero _ _, hpos, fun place _ hlast => ?_, fun c hc => ?_⟩
      fun c hc => by simp [htail c hc]
    · have hmem := List.getElem_mem hlast
      exact ⟨body[place], List.getElem?_eq_getElem hlast, by simp [hword _ hmem]⟩
    · simp at hc
  have htaken := hrun.leadingRun_eq
  have htake : (body ++ tail).extract 0 body.length = body := by
    rw [List.extract, List.drop_zero, Nat.sub_zero, List.take_left']
    rfl
  rw [List.drop_zero] at hleading htaken
  rw [definitionParts, hleading, htaken, htake]
  exact ⟨_, rfl⟩

end Parts

/-! ## A definition that matches exactly is found -/

section Found

variable {setting : Search.Setting} {environment : Path} {doc : Snapshot} {token : Token}
  {shown : Text} {store : Store}

/-- If a line of the document matches exactly, the answer is perfect. The cache does not
matter, nor does the anchor. -/
theorem resolve_exact (hset : setting.environment = some environment) {line definition : Text}
    (hline : line ∈ doc.lines) (hexact : Relates token .exactly line definition) :
    ∃ best, (resolve setting doc token shown store).1 = .ok (some best) ∧
      best.perfect = true := by
  obtain ⟨disk, _⟩ := setting
  subst hset
  obtain ⟨above, middle, habove⟩ := Search.sweep_exists disk environment (goal token)
    (Search.sites doc (doc.upward 0) shown) ⟨store, [doc.path]⟩
  obtain ⟨below, last, hbelow⟩ := Search.sweep_exists disk environment (goal token)
    (Search.sites doc doc.downward shown) ⟨middle.store, [doc.path]⟩
  obtain ⟨number, hnumber, rfl⟩ := doc.mem_lines line hline
  have hmet : (⟨doc, number, shown, false⟩ : Search.Site) ∈ above ++ below := by
    by_cases hle : number ≤ doc.anchor
    · have hup := (doc.mem_upward 0 number).2 ⟨Nat.zero_le _, hle⟩
      exact List.mem_append_left _ (habove.mem_lines _ (List.mem_map.2 ⟨number, hup, rfl⟩))
    · have hdown := (doc.mem_downward number).2 ⟨Nat.lt_of_not_le hle, hnumber⟩
      exact List.mem_append_right _ (hbelow.mem_lines _ (List.mem_map.2 ⟨number, hdown, rfl⟩))
  have hhit := (hit?_some token ⟨doc, number, shown, false⟩ _).2 ⟨definition, hexact, rfl⟩
  rw [resolve_of_sweeps habove hbelow, verdict]
  cases hfirst : (above ++ below).findSome? (Search.hit? (goal token)) with
  | none =>
    rw [List.findSome?_eq_none_iff.1 hfirst _ hmet] at hhit
    cases hhit
  | some best =>
    obtain ⟨site, -, hsite⟩ := List.exists_of_findSome?_eq_some hfirst
    obtain ⟨text, -, rfl⟩ := (hit?_some token site best).1 hsite
    exact ⟨_, rfl, rfl⟩

end Found

end Variable

namespace Lookup

open Variable (DefinitionOf)

/-- What a reference to a body reads, beside the key of a definition under that body. It is
refused exactly if the body begins with digits that have no value, and then nothing matches
the definition; otherwise the definition matches it exactly. -/
structure OwnKey (body definition line : Text) (column : Nat) : Prop where
  refused_iff : (∃ text, Cursor.variableAt line column = .error (.malformedToken text)) ↔
    Numeral.Unread body
  missed : Numeral.Unread body → ∃ key text,
    Variable.definitionParts definition = some (key, text) ∧
      ∀ token, key.compare token = .different
  matched : ¬ Numeral.Unread body → ∃ token key text,
    Cursor.variableAt line column = .ok (some token) ∧
      Variable.definitionParts definition = some (key, text) ∧ key.compare token = .exactly

def ShowsPerfect (setting : Search.Setting) (store : Store) (path : Path)
    (number column : Nat) : Prop :=
  ∃ shown found, (hover setting store path number column).1 = .ok (some shown) ∧
    shown.definition = some found ∧ found.perfect = true

section Reference

variable {body definition line : Text} {column first last : Nat}

theorem OwnKey.of_read {token : Token} {key : Variable.Key} {text : Text}
    (hread : Cursor.variableAt line column = .ok (some token))
    (hparts : Variable.definitionParts definition = some (key, text))
    (hexact : key.compare token = .exactly) (hreadable : ¬ Numeral.Unread body) :
    OwnKey body definition line column := by
  refine ⟨⟨?_, fun hunread => absurd hunread hreadable⟩,
    fun hunread => absurd hunread hreadable, fun _ => ⟨token, key, text, hread, hparts, hexact⟩⟩
  rintro ⟨text, hrefused⟩
  rw [hread] at hrefused
  cases hrefused

theorem OwnKey.of_unread {key : Variable.Key} {text token : Text}
    (hread : Cursor.variableAt line column = .error (.malformedToken token))
    (hparts : Variable.definitionParts definition = some (key, text))
    (hmissed : ∀ token, key.compare token = .different) (hunread : Numeral.Unread body) :
    OwnKey body definition line column :=
  ⟨⟨fun _ => hunread, fun _ => ⟨token, hread⟩⟩, fun _ => ⟨key, text, hparts, hmissed⟩,
    fun hnot => absurd hunread hnot⟩

theorem ownKey (hne : body ≠ []) (hword : ∀ c ∈ body, Text.isBlank c = false)
    (hdefinition : DefinitionOf body definition)
    (hselected : Cursor.VariableSelected line (min column line.length) first last)
    (hbody : line.extract (first + 1) last = body) : OwnKey body definition line column := by
  subst hbody
  by_cases hbegins : Numeral.Begins (line.extract (first + 1) last) 0
  · obtain ⟨stop, hstands⟩ := hbegins.stands (Text.edge_zero _ _)
    obtain ⟨text, hparts⟩ := hdefinition.numeral hstands
    cases hvalue : Numeral.parse ((line.extract (first + 1) last).take stop) with
    | none =>
      have hread := Cursor.VariableReading.variableAt_eq
        (.malformed first last stop hselected hstands hvalue)
      refine .of_unread hread hparts (fun token => ?_) ⟨stop, hstands, hvalue⟩
      cases token with
      | named name => rfl
      | numeric value => simp [Variable.Key.compare, hvalue]
    | some value =>
      have hread := Cursor.VariableReading.variableAt_eq
        (.number first last stop value hselected hstands hvalue)
      refine .of_read hread hparts (by simp [Variable.Key.compare, hvalue]) ?_
      -- the digits end at one place only
      rintro ⟨other, hother, hnone⟩
      rw [hother.unique hstands, hvalue] at hnone
      cases hnone
  · obtain ⟨text, hparts⟩ := hdefinition.name hne hword hbegins
    have hread := Cursor.VariableReading.variableAt_eq (.name first last hselected hbegins)
    refine .of_read hread hparts (by simp [Variable.Key.compare]) ?_
    rintro ⟨stop, hstands, -⟩
    exact hbegins hstands.begins

theorem OwnKey.shown (h : OwnKey body definition line column) {setting : Search.Setting}
    {environment : Path} {store after : Store} {path : Path} {number : Nat} {doc : Snapshot}
    {token : Token} (hset : setting.environment = some environment)
    (hload : store.load setting.disk path (some number) = .ok (doc, after))
    (hline : doc.lines[number]? = some line) (hdefinition : definition ∈ doc.lines)
    (hinstrument : Cursor.instrumentAt line column = .ok none)
    (hvariable : Cursor.variableAt line column = .ok (some token)) :
    ShowsPerfect setting store path number column := by
  have hreadable : ¬ Numeral.Unread body := by
    intro hunread
    obtain ⟨text, hrefused⟩ := h.refused_iff.2 hunread
    rw [hvariable] at hrefused
    cases hrefused
  obtain ⟨named, key, text, hnamed, hparts, hexact⟩ := h.matched hreadable
  rw [hvariable] at hnamed
  cases hnamed
  obtain ⟨best, hbest, hperfect⟩ := Variable.resolve_exact hset hdefinition ⟨key, hparts, hexact⟩
  have hhover := hover_sought hload hline (referenceAt_token hinstrument hvariable) rfl
  refine ⟨found (spelling (.token token)) best, best, ?_, rfl, hperfect⟩
  rw [hhover, shows, seek, hbest]
  rfl

end Reference

/-- A reference and a definition under its body: the one matches the other or is refused, and
where a reference names something, a document that holds both shows it with a perfect
definition. -/
theorem reference_ownDefinition (body definition line : Text) (column first last : Nat)
    (hne : body ≠ []) (hword : ∀ c ∈ body, Text.isBlank c = false)
    (hdefinition : DefinitionOf body definition)
    (hselected : Cursor.VariableSelected line (min column line.length) first last)
    (hbody : line.extract (first + 1) last = body) :
    OwnKey body definition line column ∧
      ∀ (setting : Search.Setting) (environment : Path) (store after : Store) (path : Path)
        (number : Nat) (doc : Snapshot) (token : Token),
        setting.environment = some environment →
        store.load setting.disk path (some number) = .ok (doc, after) →
        doc.lines[number]? = some line → definition ∈ doc.lines →
        Cursor.instrumentAt line column = .ok none →
        Cursor.variableAt line column = .ok (some token) →
        ShowsPerfect setting store path number column := by
  have hkey := ownKey hne hword hdefinition hselected hbody
  refine ⟨hkey, ?_⟩
  intro setting environment store after path number doc token hset hload hline hheld hinstrument
    hvariable
  exact hkey.shown hset hload hline hheld hinstrument hvariable

def solo : Disk := .holding [("song.mml", "!lead o4\nA !lead".toUTF8, 1)]

def soloSong : Snapshot :=
  .make "song.mml".toList ["!lead o4".toList, "A !lead".toList] (some 1)

def soloStore : Store :=
  Store.empty.insert (Path.key solo.home "song.mml".toList) ⟨soloSong.lines, 1⟩

theorem solo_selected :
    Cursor.VariableSelected "A !lead".toList (min 3 "A !lead".toList.length) 2 7 := by
  have hcharacters : ∀ place < 7, 2 ≤ place →
      ("A !lead".toList[place]?.any fun c => !Text.isBlank c) = true := by decide
  have hword : Text.Run (fun c => !Text.isBlank c) "A !lead".toList 2 7 := by
    refine ⟨?_, by decide, fun place hfirst hlast => ?_, fun c hc => by cases hc⟩
    · intro before c hbefore hc
      obtain rfl : before = 1 := by omega
      cases hc
      rfl
    · exact Option.any_eq_true _ _ |>.1 (hcharacters place hlast hfirst)
  refine ⟨⟨2, hword, Nat.le_refl _, rfl, fun place hle hlt => by omega, by decide⟩,
    ⟨⟨1, ' ', by decide, rfl, rfl⟩, by decide, by decide⟩, ⟨1, ' ', rfl, rfl, by decide⟩, ?_⟩
  intro opening other last _ hcovered _
  obtain ⟨place, c, hlt, hc, hblank⟩ := hcovered.blank
  by_cases hplace : place = 0
  · subst hplace
    cases hc
    cases hblank
  · omega

theorem solo_instrument : Cursor.instrumentAt "A !lead".toList 3 = .ok none := by
  refine Cursor.InstrumentReading.instrumentAt_eq (.nothing fun first middle last htoken _ => ?_)
  obtain ⟨c, hc, hat⟩ := htoken.ats.inside first (Nat.le_refl _) htoken.ats.nonempty
  have hmem := List.mem_of_getElem? hc
  rw [of_decide_eq_true hat] at hmem
  exact absurd hmem (by decide)

theorem solo_variable :
    Cursor.variableAt "A !lead".toList 3 = .ok (some (.named "lead".toList)) := by
  refine Cursor.VariableReading.variableAt_eq (.name 2 7 solo_selected fun hbegins => ?_)
  cases hbegins with
  | decimal c hc hdigit =>
    cases hc
    revert hdigit
    decide
  | hexadecimal c hdollar _ _ => exact absurd hdollar (by decide)

theorem reference_ownDefinition_solo :
    OwnKey "lead".toList "!lead o4".toList "A !lead".toList 3 ∧
      ShowsPerfect ⟨solo, some "env".toList⟩ Store.empty "song.mml".toList 1 3 := by
  have hdefinition : DefinitionOf "lead".toList "!lead o4".toList :=
    .followed ' ' "o4".toList rfl (by decide)
  have hload : Store.empty.load solo "song.mml".toList (some 1) = .ok (soloSong, soloStore) := rfl
  have hall : ("lead".toList.all fun c => !Text.isBlank c) = true := rfl
  have hword : ∀ c ∈ "lead".toList, Text.isBlank c = false := fun c hc => by
    simpa using List.all_eq_true.1 hall c hc
  obtain ⟨hkey, hshown⟩ := reference_ownDefinition "lead".toList "!lead o4".toList
    "A !lead".toList 3 2 7 (by decide) hword hdefinition solo_selected rfl
  exact ⟨hkey, hshown ⟨solo, some "env".toList⟩ "env".toList Store.empty soloStore
    "song.mml".toList 1 soloSong _ rfl hload rfl (by decide) solo_instrument solo_variable⟩

end Lookup

end MmlLookup
