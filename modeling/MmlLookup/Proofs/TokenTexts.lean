import MmlLookup.Variable
import MmlLookup.Proofs.Gaps
import MmlLookup.Proofs.Numerals
import MmlLookup.Proofs.Segments

/-!
# A token given as a text

A token is given as a text of its own or by a reference on a line. The text is a numeral
throughout or else a name, while a reference names the numeral that its body begins with.
Both give one token where the body has a value throughout or does not begin like a numeral.
Any other body is a name that no definition line has, and a reference to it is cut off where
its digits end, or refused.
-/

set_option autoImplicit false

namespace MmlLookup

theorem Numeral.Begins.append {text : Text} {place : Nat} (h : Begins text place) (tail : Text) :
    Begins (text ++ tail) place := by
  have hfront {place : Nat} {c : Char} (hc : text[place]? = some c) :
      (text ++ tail)[place]? = some c := by
    rw [List.getElem?_append_left (List.getElem?_eq_some_iff.1 hc).1, hc]
  cases h with
  | decimal c hc hdigit => exact .decimal c (hfront hc) hdigit
  | hexadecimal c hdollar hc hdigit => exact .hexadecimal c (hfront hdollar) (hfront hc) hdigit

theorem Variable.compare_name {name wanted : Text}
    (h : Key.compare (.name name) (.named wanted) = .exactly) : wanted = name := by
  refine Classical.byContradiction fun hne => ?_
  rw [Key.compare, if_neg hne] at h
  split at h
  · cases h
  · cases h

theorem Variable.name_unbegun {line name text : Text}
    (h : definitionParts line = some (.name name, text)) : ¬ Numeral.Begins name 0 := by
  intro hbegins
  unfold definitionParts at h
  split at h
  · rename_i rest
    split at h
    · cases h
    · rename_i hleading
      split at h
      · rename_i run behind hrun
        cases h
        obtain ⟨rfl, -, -⟩ := Text.leadingRun_some_iff.1 hrun
        obtain ⟨stop, hstands⟩ := (hbegins.append behind).stands (Text.edge_zero _ _)
        have hread := hstands.leading_eq
        rw [List.drop_zero, hleading] at hread
        cases hread
      · cases h
  · cases h

namespace Cursor

section Alone

variable {body : Text} {stop value : Nat}

theorem segment_alone (hne : body ≠ []) (hword : ∀ c ∈ body, Text.isBlank c = false) :
    VariableSegment ("A !".toList ++ body) 2 2 (3 + body.length) := by
  have hpos := List.length_pos_iff.2 hne
  have hinside : ∀ c ∈ '!' :: body, (!Text.isBlank c) = true := by
    intro c hc
    rcases List.mem_cons.1 hc with rfl | hc
    · decide
    · rw [hword c hc]
      rfl
  have hblank : ∀ c, "A ".toList.getLast? = some c → (!Text.isBlank c) = false := by
    rintro c ⟨⟩
    decide
  have hrun := Text.run_behind "A ".toList ('!' :: body) hblank (by simp) hinside
  have hlast : "A ".toList.length + ('!' :: body).length = 3 + body.length := by
    rw [List.length_cons]
    change 2 + (body.length + 1) = _
    omega
  rw [hlast] at hrun
  refine ⟨hrun, Nat.le_refl 2, rfl, fun place hfirst hlt => ?_, by omega⟩
  omega

theorem selected_alone (hne : body ≠ []) (hword : ∀ c ∈ body, Text.isBlank c = false) :
    VariableSelected ("A !".toList ++ body) (min 2 ("A !".toList ++ body).length) 2
      (3 + body.length) := by
  have hcursor : min 2 ("A !".toList ++ body).length = 2 := by
    rw [List.length_append]
    change min 2 (3 + body.length) = 2
    omega
  rw [hcursor]
  refine ⟨⟨2, segment_alone hne hword⟩, ⟨⟨1, ' ', by decide, rfl, rfl⟩, Nat.le_refl 2, by omega⟩,
    ⟨1, ' ', rfl, rfl, by decide⟩, fun opening other last _ hcovered _ => ?_⟩
  -- the first blank of the line is at place one
  obtain ⟨place, c, hlt, hc, hblank⟩ := hcovered.blank
  by_cases hplace : place = 0
  · subst hplace
    cases hc
    cases hblank
  · omega

theorem body_alone (body : Text) :
    ("A !".toList ++ body).extract (2 + 1) (3 + body.length) = body := by
  have hcount : 3 + body.length - (2 + 1) = body.length := by omega
  rw [List.extract, hcount]
  exact List.take_length

theorem text_alone (body : Text) :
    ("A !".toList ++ body).extract 2 (3 + body.length) = '!' :: body := by
  have hcount : 3 + body.length - 2 = ('!' :: body).length := by
    rw [List.length_cons]
    omega
  rw [List.extract, hcount]
  exact List.take_length

theorem variableAt_name (hne : body ≠ []) (hword : ∀ c ∈ body, Text.isBlank c = false)
    (hname : ¬ Numeral.Begins body 0) :
    variableAt ("A !".toList ++ body) 2 = .ok (some (.named body)) := by
  have hreading := VariableReading.name _ _ (selected_alone hne hword)
    (by rw [body_alone]; exact hname)
  rw [body_alone] at hreading
  exact hreading.variableAt_eq

theorem variableAt_number (hne : body ≠ []) (hword : ∀ c ∈ body, Text.isBlank c = false)
    (hstands : Numeral.Stands body 0 stop) (hvalue : Numeral.parse (body.take stop) = some value) :
    variableAt ("A !".toList ++ body) 2 = .ok (some (.numeric value)) := by
  refine (VariableReading.number _ _ stop value (selected_alone hne hword) ?_ ?_).variableAt_eq
  · rw [body_alone]
    exact hstands
  · rw [body_alone]
    exact hvalue

theorem variableAt_malformed (hne : body ≠ []) (hword : ∀ c ∈ body, Text.isBlank c = false)
    (hstands : Numeral.Stands body 0 stop) (hvalue : Numeral.parse (body.take stop) = none) :
    variableAt ("A !".toList ++ body) 2 = .error (.malformedToken ('!' :: body)) := by
  have hreading := VariableReading.malformed _ _ stop (selected_alone hne hword)
    (by rw [body_alone]; exact hstands) (by rw [body_alone]; exact hvalue)
  rw [text_alone] at hreading
  exact hreading.variableAt_eq

end Alone

/-- A reference gives another token than its body as a text of its own: the numeral that the
body begins with but goes on behind, or a refusal. -/
inductive CutOff (body : Text) : Except Failure (Option Token) → Prop
  | number (stop value : Nat) : stop < body.length → Numeral.Stands body 0 stop →
      Numeral.parse (body.take stop) = some value → CutOff body (.ok (some (.numeric value)))
  | malformed : CutOff body (.error (.malformedToken ('!' :: body)))

section Texts

variable {body : Text}

theorem ofText_some {value : Nat} (h : Numeral.parse body = some value) :
    Token.ofText body = .numeric value := by
  rw [Token.ofText, h]

theorem ofText_none (h : Numeral.parse body = none) : Token.ofText body = .named body := by
  rw [Token.ofText, h]

theorem cutOff_alone (hne : body ≠ []) (hword : ∀ c ∈ body, Text.isBlank c = false)
    (hnone : Numeral.parse body = none) (hbegins : Numeral.Begins body 0) :
    CutOff body (variableAt ("A !".toList ++ body) 2) := by
  obtain ⟨stop, hstands⟩ := hbegins.stands (Text.edge_zero _ _)
  cases hvalue : Numeral.parse (body.take stop) with
  | none =>
    rw [variableAt_malformed hne hword hstands hvalue]
    exact .malformed
  | some value =>
    rw [variableAt_number hne hword hstands hvalue]
    refine .number stop value (Nat.lt_of_le_of_ne hstands.within ?_) hstands hvalue
    rintro rfl
    rw [List.take_length, hnone] at hvalue
    cases hvalue

theorem variableAt_ofText_iff (hne : body ≠ []) (hword : ∀ c ∈ body, Text.isBlank c = false) :
    variableAt ("A !".toList ++ body) 2 = .ok (some (.ofText body)) ↔
      (∃ value, Numeral.parse body = some value) ∨ ¬ Numeral.Begins body 0 := by
  cases hvalue : Numeral.parse body with
  | some value =>
    have hstands := Numeral.parse_stands hword hvalue
    have hwhole : Numeral.parse (body.take body.length) = some value := by
      rw [List.take_length, hvalue]
    rw [ofText_some hvalue]
    exact ⟨fun _ => .inl ⟨value, rfl⟩, fun _ => variableAt_number hne hword hstands hwhole⟩
  | none =>
    rw [ofText_none hvalue]
    constructor
    · refine fun hread => .inr fun hbegins => ?_
      have hcut := cutOff_alone hne hword hvalue hbegins
      rw [hread] at hcut
      cases hcut
    · rintro (⟨value, hsome⟩ | hname)
      · cases hsome
      · exact variableAt_name hne hword hname

end Texts

/-- Where the two ways of giving a token part, and what each gives then. -/
theorem variableAt_asText (body : Text) (hne : body ≠ [])
    (hword : ∀ c ∈ body, Text.isBlank c = false) :
    (variableAt ("A !".toList ++ body) 2 = .ok (some (.ofText body)) ↔
      (∃ value, Numeral.parse body = some value) ∨ ¬ Numeral.Begins body 0) ∧
    (Numeral.parse body = none → Numeral.Begins body 0 →
      Token.ofText body = .named body ∧
      (∀ line key text, Variable.definitionParts line = some (key, text) →
        key.compare (.named body) ≠ .exactly) ∧
      CutOff body (variableAt ("A !".toList ++ body) 2)) := by
  refine ⟨variableAt_ofText_iff hne hword, fun hnone hbegins => ⟨ofText_none hnone, ?_, ?_⟩⟩
  · intro line key text hparts hexact
    cases key with
    | numeral digits => cases hexact
    | name name =>
      obtain rfl := Variable.compare_name hexact
      exact Variable.name_unbegun hparts hbegins
  · exact cutOff_alone hne hword hnone hbegins

/-- Digits that go on as a name are a name, and a reference to them is cut off. -/
theorem variableAt_asText_mixed :
    "12x".toList ≠ [] ∧ (∀ c ∈ "12x".toList, Text.isBlank c = false) ∧
      variableAt "A !12x".toList 2 ≠ .ok (some (.ofText "12x".toList)) ∧
      Token.ofText "12x".toList = .named "12x".toList ∧
      (∀ line key text, Variable.definitionParts line = some (key, text) →
        key.compare (.named "12x".toList) ≠ .exactly) ∧
      CutOff "12x".toList (variableAt "A !12x".toList 2) := by
  have hall : ("12x".toList.all fun c => !Text.isBlank c) = true := by decide
  have hword : ∀ c ∈ "12x".toList, Text.isBlank c = false := fun c hc => by
    simpa using List.all_eq_true.1 hall c hc
  have hnone : Numeral.parse "12x".toList = none := by decide +kernel
  have hbegins : Numeral.Begins "12x".toList 0 := .decimal '1' rfl rfl
  obtain ⟨hiff, hparted⟩ := variableAt_asText "12x".toList (by decide) hword
  refine ⟨by decide, hword, fun hread => ?_, hparted hnone hbegins⟩
  rcases hiff.1 hread with ⟨value, hvalue⟩ | hname
  · rw [hnone] at hvalue
    cases hvalue
  · exact hname hbegins

end Cursor

end MmlLookup
