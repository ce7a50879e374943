import MmlLookup.Command.Reach
import MmlLookup.Proofs.Escaping

/-!
# What the exit code tells

A command makes one call of the library, unless the numeral it is given, the settings or
standard input are at fault. The exit code tells how this ends: with a result, without
one, or with a failure, where a missing environment directory counts as no result. The
output format is chosen after that and changes only what is printed.
-/

set_option autoImplicit false

namespace MmlLookup.Command

/-- The numeral a request is given. A variable that is no numeral is a name. -/
def Request.numeral? : Request → Option Text
  | .instrument _ _ id => some id
  | .number text => some text
  | _ => none

def Request.Sound (request : Request) : Prop :=
  ∀ text, request.numeral? = some text → Numeral.parse text ≠ none

def Request.cursor? : Request → Option (Path × Nat × Nat)
  | .definition file line column _ => some (file, line, column)
  | .hover file line column _ => some (file, line, column)
  | _ => none

def Request.asked : Request → Text → Prop
  | .definition _ _ _ _ => fun text => Table.ofLine text = none ∧ Directive.parse text = none
  | _ => fun _ => True

def Request.call (work : Workspace) : Request → Except Failure (Option Answer)
  | .definition file line column _ =>
    (Lookup.definition work.setting work.store file line column).1.map (·.map .location)
  | .hover file line column _ =>
    (Lookup.hover work.setting work.store file line column).1.map (·.map .hover)
  | .instrument file anchor id =>
    (numeral id).bind fun id =>
      (Lookup.instrumentAbove work.setting work.store file anchor id).1.map (·.map .descriptor)
  | .variable file anchor token =>
    (Lookup.variableAround work.setting work.store file anchor (Token.ofText token)).1.map
      (·.map .descriptor)
  | .number text => (numeral text).map fun value => some (.numeral value)
  | .envelope id => .ok ((Table.envelopeLabel id).map .label)
  | .drum mask => .ok ((Table.drumLabel mask).map .label)

/-! ## What comes before the call -/

def settingsPath : Path := Path.join ['.'] Settings.fileName

def Unsettled (disk : Disk) : Prop :=
  disk.node? disk.home = none ∨
    disk.DirectoryAt disk.home ∧ disk.node? (Settings.fileName :: disk.home) = none

/-- The settings of the working directory, which are empty if there is no such file. -/
inductive Configured (disk : Disk) : Settings → Prop
  | absent : Unsettled disk → Configured disk .empty
  | written (text : Text) (modified : Nat) (settings : Settings) :
      disk.read settingsPath = .ok (text, modified) → Settings.parse text = some settings →
      Configured disk settings

/-- The environment directory: the one given, or else the one in the settings, or else the
one that holds the batch file, unless that is the empty path. -/
def directory (given : Option Path) (settings : Settings) : Option Path :=
  given.or (settings.environmentPath.or
    ((settings.batchPath.bind Path.parent).filter fun path => !path.isEmpty))

/-- The store of a call is empty but for the text of the queried document on standard
input. -/
inductive Opened (input : ByteArray) (request : Request) : Store → Prop
  | unread : request.readsInput = false → Opened input request .empty
  | buffered (file : Path) (text : Text) :
      request.readsInput = true → request.file? = some file → Disk.decode input = .ok text →
      Opened input request (Store.empty.setActive ⟨file, text⟩)

/-- What a call runs against. A request without a document needs nothing. -/
def Prepared (disk : Disk) (input : ByteArray) (given : Option Path) (request : Request)
    (work : Workspace) : Prop :=
  request.file?.isSome → ∃ settings, Configured disk settings ∧
    work.setting = ⟨disk, directory given settings⟩ ∧ Opened input request work.store

/-- Why no call is made: the numeral is at fault, or else the settings, or else standard
input. -/
inductive Refused (disk : Disk) (input : ByteArray) (request : Request) : Failure → Prop
  | misspelt (text : Text) :
      request.numeral? = some text → Numeral.parse text = none →
      Refused disk input request (.malformedToken text)
  | unreadable (fault : Fault) :
      request.Sound → request.file?.isSome → ¬ Unsettled disk →
      disk.read settingsPath = .error fault → Refused disk input request (.io fault)
  | invalid (text : Text) (modified : Nat) :
      request.Sound → request.file?.isSome → disk.read settingsPath = .ok (text, modified) →
      Settings.parse text = none → Refused disk input request .invalidSettings
  | undecoded (settings : Settings) (fault : Fault) :
      request.readsInput = true → Configured disk settings → Disk.decode input = .error fault →
      Refused disk input request (.io fault)

inductive Ends (disk : Disk) (input : ByteArray) (given : Option Path) (request : Request) :
    Except Failure (Option Answer) → Prop
  | refused (failure : Failure) :
      Refused disk input request failure → Ends disk input given request (.error failure)
  | called (work : Workspace) :
      request.Sound → Prepared disk input given request work →
      Ends disk input given request (request.call work)

section Ending

variable {disk : Disk} {input : ByteArray} {given : Option Path} {request : Request}
  {work : Workspace} {failure : Failure} {file : Path} {line column : Nat}

theorem directory_eq (given : Option Path) (settings : Settings) :
    (settings.withEnvironment given).environment = directory given settings := by
  unfold directory Settings.withEnvironment
  cases given with
  | some path => rfl
  | none =>
    unfold Settings.environment
    cases settings.environmentPath <;> rfl

theorem locate_settings (disk : Disk) :
    disk.locate settingsPath = disk.descend disk.home [['.'], Settings.fileName] := by
  unfold Disk.locate
  rw [if_neg (by decide), if_neg (by decide), if_neg (by decide)]
  rfl

theorem decode_ne_noEntry (bytes : ByteArray) : Disk.decode bytes ≠ .error .noEntry := by
  unfold Disk.decode
  split
  · simp [Fault.notUtf8, Fault.noEntry]
  · simp

theorem unsettled_iff (disk : Disk) :
    disk.read settingsPath = .error .noEntry ↔ Unsettled disk := by
  have hdot : disk.home.step ['.'] = disk.home := rfl
  have hname : disk.home.step Settings.fileName = Settings.fileName :: disk.home := rfl
  have hshort : ¬ Disk.nameLimit < Disk.byteSize ['.'] ∧
      ¬ Disk.nameLimit < Disk.byteSize Settings.fileName := by decide
  unfold Disk.read Disk.file Unsettled Disk.DirectoryAt
  rw [locate_settings]
  cases hhome : disk.node? disk.home with
  | none => simp [Disk.descend, hhome]
  | some node =>
    cases node with
    | file file => simp [Disk.descend, hhome, Fault.noEntry, Fault.notDirectory]
    | directory =>
      simp only [Disk.descend, hhome, hdot, hname, hshort.1, hshort.2, if_false]
      cases disk.node? (Settings.fileName :: disk.home) with
      | none => simp
      | some node =>
        cases node with
        | directory => simp [Fault.noEntry, Fault.isDirectory]
        | file file =>
          cases hd : Disk.decode file.bytes with
          | error fault =>
            have hne : fault ≠ .noEntry := fun hf => decode_ne_noEntry file.bytes (hf ▸ hd)
            simp [hd, hne]
          | ok text => simp [hd]

theorem load_ok_iff (disk : Disk) (settings : Settings) :
    Settings.load disk ['.'] = .ok settings ↔ Configured disk settings := by
  constructor
  · intro h
    unfold Settings.load at h
    split at h
    · rename_i fault hr
      split at h
      · rename_i hf
        subst hf
        cases h
        exact .absent ((unsettled_iff disk).1 hr)
      · cases h
    · rename_i text modified hr
      split at h
      · rename_i other hp
        cases h
        exact .written text modified _ hr hp
      · cases h
  · intro h
    cases h with
    | absent hu =>
      have hr := (unsettled_iff disk).2 hu
      rw [settingsPath] at hr
      simp [Settings.load, hr]
    | written text modified _ hr hp =>
      rw [settingsPath] at hr
      simp [Settings.load, hr, hp]

/-- The settings fail if the file is there and cannot be read, or is malformed. -/
theorem load_error_iff (disk : Disk) (failure : Failure) :
    Settings.load disk ['.'] = .error failure ↔
      (∃ fault, ¬ Unsettled disk ∧ disk.read settingsPath = .error fault ∧ failure = .io fault) ∨
      ∃ text modified, disk.read settingsPath = .ok (text, modified) ∧
        Settings.parse text = none ∧ failure = .invalidSettings := by
  rw [← unsettled_iff]
  unfold Settings.load
  rw [settingsPath]
  cases hr : disk.read (Path.join ['.'] Settings.fileName) with
  | error fault => by_cases hf : fault = .noEntry <;> simp [hf, eq_comm]
  | ok read =>
    obtain ⟨text, modified⟩ := read
    cases hp : Settings.parse text <;> simp [hp, eq_comm]

/-! ## The result of a request is that of its call -/

theorem Request.readsInput_sound (h : request.readsInput = true) : request.Sound := by
  cases request <;> simp_all [readsInput, Sound, numeral?]

theorem Request.cursor_sound (h : request.cursor? = some (file, line, column)) :
    request.Sound := by
  cases request <;> simp_all [cursor?, Sound, numeral?]

theorem Request.sound_or (request : Request) :
    request.Sound ∨ ∃ text, request.numeral? = some text ∧ Numeral.parse text = none := by
  by_cases h : ∃ text, request.numeral? = some text ∧ Numeral.parse text = none
  · exact .inr h
  · exact .inl fun text hn hp => h ⟨text, hn, hp⟩

theorem numeral_sound {text : Text} (hs : request.Sound) (h : request.numeral? = some text) :
    ∃ value, numeral text = .ok value := by
  obtain ⟨value, hv⟩ := Option.ne_none_iff_exists'.1 (hs text h)
  exact ⟨value, by simp [numeral, hv]⟩

theorem answer_misspelt {text : Text} (h : request.numeral? = some text)
    (hp : Numeral.parse text = none) :
    answer disk input given request = .error (.malformedToken text) := by
  have hn : numeral text = .error (.malformedToken text) := by simp [numeral, hp]
  cases request with
  | instrument file anchor id =>
    cases h
    simp only [answer, hn]
    rfl
  | number other =>
    cases h
    simp only [answer, hn]
    rfl
  | _ => cases h

theorem answer_called (hs : request.Sound) (hf : request.file? = some file) :
    answer disk input given request =
      (workspace disk input given file request.readsInput).bind fun work => request.call work := by
  cases request with
  | instrument other anchor id =>
    cases hf
    obtain ⟨value, hv⟩ := numeral_sound hs rfl
    simp only [answer, Request.call, hv, bind_pure_comp]
    rfl
  | number text => cases hf
  | envelope id => cases hf
  | drum mask => cases hf
  | _ =>
    cases hf
    simp only [answer, Request.call, bind_pure_comp]
    rfl

theorem answer_bare (hf : request.file? = none) (work : Workspace) :
    answer disk input given request = request.call work := by
  cases request with
  | number text =>
    simp only [answer, Request.call]
    cases numeral text <;> rfl
  | envelope id => rfl
  | drum mask => rfl
  | _ => cases hf

theorem Request.readsInput_file (h : request.readsInput = true) :
    ∃ file, request.file? = some file := by
  cases request with
  | definition file line column stdin => exact ⟨file, rfl⟩
  | hover file line column stdin => exact ⟨file, rfl⟩
  | _ => cases h

theorem workspace_ok_iff (hf : request.file? = some file) :
    workspace disk input given file request.readsInput = .ok work ↔
      Prepared disk input given request work := by
  constructor
  · intro h _
    unfold workspace at h
    cases hl : Settings.load disk ['.'] with
    | error failure => simp [hl] at h
    | ok settings =>
      refine ⟨settings, (load_ok_iff disk settings).1 hl, ?_⟩
      simp only [hl] at h
      by_cases hr : request.readsInput = true
      · rw [if_pos hr] at h
        cases hd : Disk.decode input with
        | error fault => simp [hd] at h
        | ok text =>
          simp only [hd] at h
          cases h
          exact ⟨by rw [directory_eq], .buffered file text hr hf hd⟩
      · rw [if_neg hr] at h
        cases h
        exact ⟨by rw [directory_eq], .unread (eq_false_of_ne_true hr)⟩
  · intro h
    obtain ⟨settings, hc, hsetting, hopened⟩ := h (by simp [hf])
    obtain ⟨setting, store⟩ := work
    obtain rfl : setting = _ := hsetting
    rw [workspace, (load_ok_iff disk settings).2 hc, ← directory_eq]
    cases hopened with
    | unread hr =>
      simp only [hr]
      rfl
    | buffered other text hr hother hd =>
      cases hf.symm.trans hother
      simp only [hr, hd]
      rfl

theorem workspace_refused (hs : request.Sound) (hf : request.file? = some file)
    (h : workspace disk input given file request.readsInput = .error failure) :
    Refused disk input request failure := by
  have hsome : request.file?.isSome := by simp [hf]
  unfold workspace at h
  cases hl : Settings.load disk ['.'] with
  | error other =>
    simp only [hl] at h
    cases h
    rcases (load_error_iff disk _).1 hl with ⟨fault, hu, hr, rfl⟩ | ⟨text, modified, hr, hp, rfl⟩
    · exact .unreadable fault hs hsome hu hr
    · exact .invalid text modified hs hsome hr hp
  | ok settings =>
    simp only [hl] at h
    by_cases hr : request.readsInput = true
    · rw [if_pos hr] at h
      cases hd : Disk.decode input with
      | error fault =>
        simp only [hd] at h
        cases h
        exact .undecoded settings fault hr ((load_ok_iff disk settings).1 hl) hd
      | ok text => simp [hd] at h
    · rw [if_neg hr] at h
      cases h

theorem Refused.answer_eq (h : Refused disk input request failure) :
    answer disk input given request = .error failure := by
  have hload (file : Path) (hs : request.Sound) (hf : request.file? = some file)
      (hl : Settings.load disk ['.'] = .error failure) :
      answer disk input given request = .error failure := by
    rw [answer_called hs hf, workspace, hl]
    rfl
  cases h with
  | misspelt text hn hp => exact answer_misspelt hn hp
  | unreadable fault hs hsome hu hr =>
    obtain ⟨file, hf⟩ := Option.isSome_iff_exists.1 hsome
    exact hload file hs hf ((load_error_iff disk _).2 (.inl ⟨fault, hu, hr, rfl⟩))
  | invalid text modified hs hsome hr hp =>
    obtain ⟨file, hf⟩ := Option.isSome_iff_exists.1 hsome
    exact hload file hs hf ((load_error_iff disk _).2 (.inr ⟨text, modified, hr, hp, rfl⟩))
  | undecoded settings fault hr hc hd =>
    obtain ⟨file, hf⟩ := Request.readsInput_file hr
    rw [answer_called (Request.readsInput_sound hr) hf, workspace, (load_ok_iff disk settings).2 hc]
    simp [hr, hd, Except.bind]

theorem called_answer (hs : request.Sound) (hw : Prepared disk input given request work) :
    answer disk input given request = request.call work := by
  cases hf : request.file? with
  | none => exact answer_bare hf work
  | some file =>
    rw [answer_called hs hf, (workspace_ok_iff hf).2 hw]
    rfl

theorem ends_iff (disk : Disk) (input : ByteArray) (given : Option Path) (request : Request)
    (result : Except Failure (Option Answer)) :
    Ends disk input given request result ↔ result = answer disk input given request := by
  constructor
  · intro h
    cases h with
    | refused failure h => exact h.answer_eq.symm
    | called work hs hw => exact (called_answer hs hw).symm
  · rintro rfl
    rcases request.sound_or with hs | ⟨text, hn, hp⟩
    · cases hf : request.file? with
      | none =>
        rw [answer_bare hf ⟨⟨disk, none⟩, .empty⟩]
        exact .called _ hs fun hsome => by simp [hf] at hsome
      | some file =>
        rw [answer_called hs hf]
        cases hw : workspace disk input given file request.readsInput with
        | error failure => exact .refused failure (workspace_refused hs hf hw)
        | ok work => exact .called work hs ((workspace_ok_iff hf).1 hw)
    · rw [answer_misspelt hn hp]
      exact .refused _ (.misspelt text hn hp)

/-! ## The failures of a request -/

/-- What makes a request fail besides a missing environment directory: its call is refused,
or a cursor is in a document that cannot be read or on a numeral that is too large. -/
inductive Faulty (disk : Disk) (input : ByteArray) (given : Option Path) (request : Request) :
    Failure → Prop
  | refused (failure : Failure) :
      Refused disk input request failure → Faulty disk input given request failure
  | unreadable (file : Path) (line column : Nat) (settings : Settings) (fault : Fault) :
      request.cursor? = some (file, line, column) → request.readsInput = false →
      Configured disk settings → disk.read file = .error fault →
      Faulty disk input given request (.unreadable file fault)
  | misread (work : Workspace) (file : Path) (line column : Nat) (token : Text) :
      request.cursor? = some (file, line, column) → Prepared disk input given request work →
      Lookup.Misread work.setting work.store file line column request.asked
        (.malformedToken token) →
      Faulty disk input given request (.malformedToken token)

theorem cursorFailures_map {α β : Type} {setting : Search.Setting} {store : Store}
    {asked : Text → Prop} {result : Except Failure α} (f : α → β)
    (h : Lookup.CursorFailures setting store file line column asked result) :
    Lookup.CursorFailures setting store file line column asked (result.map f) where
  unreadable_iff named fault := (map_error f result _).trans (h.unreadable_iff named fault)
  malformed_iff token := (map_error f result _).trans (h.malformed_iff token)
  others failure hf := h.others failure ((map_error f result _).1 hf)

theorem call_failures (work : Workspace) (h : request.cursor? = some (file, line, column)) :
    Lookup.CursorFailures work.setting work.store file line column request.asked
      (request.call work) := by
  cases request with
  | definition other l c stdin =>
    cases h
    exact cursorFailures_map _ (Lookup.definition_failures _ _ _ _ _)
  | hover other l c stdin =>
    cases h
    exact cursorFailures_map _ (Lookup.hover_failures _ _ _ _ _)
  | _ => cases h

theorem call_missing (hs : request.Sound) (hc : request.cursor? = none)
    (h : request.call work = .error failure) : failure = .configurationMissing := by
  cases request with
  | definition file line column stdin => cases hc
  | hover file line column stdin => cases hc
  | instrument file anchor id =>
    obtain ⟨value, hv⟩ := numeral_sound hs rfl
    simp only [Request.call, hv] at h
    exact (Lookup.instrumentAbove_failure ((map_error _ _ _).1 h)).1
  | number text =>
    obtain ⟨value, hv⟩ := numeral_sound hs rfl
    simp only [Request.call, hv] at h
    cases h
  | envelope id => cases h
  | drum mask => cases h
  | _ => exact (Lookup.variableAround_failure ((map_error _ _ _).1 h)).1

theorem Request.cursor_file (h : request.cursor? = some (file, line, column)) :
    request.file? = some file := by
  cases request <;> simp_all [cursor?, file?]

theorem opened_unreadable {store : Store} (hf : request.file? = some file)
    (h : Opened input request store) (fault : Fault) :
    store.Unreadable disk file fault ↔
      request.readsInput = false ∧ disk.read file = .error fault := by
  cases h with
  | unread hr =>
    simp [Store.Unreadable, Store.buffer?, Store.fresh?, Store.cached?, Store.empty, hr]
  | buffered other text hr hother hd =>
    cases hf.symm.trans hother
    simp [Store.Unreadable, Store.buffer?, Store.setActive, hr, Path.sameDocument]

theorem Refused.ne_missing (h : Refused disk input request failure) :
    failure ≠ .configurationMissing := by
  cases h <;> exact Failure.noConfusion

theorem Faulty.ends (h : Faulty disk input given request failure) :
    failure ≠ .configurationMissing ∧ Ends disk input given request (.error failure) := by
  cases h with
  | refused failure h => exact ⟨h.ne_missing, .refused _ h⟩
  | unreadable file line column settings fault hc hr hconfigured hread =>
    refine ⟨Failure.noConfusion, ?_⟩
    have hopened : Opened input request .empty := .unread hr
    have hw : Prepared disk input given request
        ⟨⟨disk, directory given settings⟩, .empty⟩ :=
      fun _ => ⟨settings, hconfigured, rfl, hopened⟩
    have hunreadable : Store.empty.Unreadable disk file fault :=
      (opened_unreadable (request.cursor_file hc) hopened fault).2 ⟨hr, hread⟩
    have hcall := ((call_failures ⟨⟨disk, directory given settings⟩, .empty⟩ hc).unreadable_iff
      file fault).2 ⟨rfl, hunreadable⟩
    rw [← hcall]
    exact .called _ (request.cursor_sound hc) hw
  | misread work file line column token hc hw hm =>
    refine ⟨Failure.noConfusion, ?_⟩
    have hcall := ((call_failures work hc).malformed_iff token).2 hm
    rw [← hcall]
    exact .called work (request.cursor_sound hc) hw

theorem called_faulty (hs : request.Sound) (hw : Prepared disk input given request work)
    (hcall : request.call work = .error failure) (hne : failure ≠ .configurationMissing) :
    Faulty disk input given request failure := by
  cases hc : request.cursor? with
  | none => exact absurd (call_missing hs hc hcall) hne
  | some cursor =>
    obtain ⟨file, line, column⟩ := cursor
    have hfails := call_failures work hc
    rcases hfails.others failure hcall with hm | ⟨named, fault, rfl⟩ | ⟨token, rfl⟩
    · exact absurd hm.1 hne
    · obtain ⟨rfl, hunreadable⟩ := (hfails.unreadable_iff named fault).1 hcall
      have hf := request.cursor_file hc
      obtain ⟨settings, hconfigured, hsetting, hopened⟩ := hw (by simp [hf])
      rw [hsetting] at hunreadable
      obtain ⟨hr, hread⟩ := (opened_unreadable hf hopened fault).1 hunreadable
      exact .unreadable named line column settings fault hc hr hconfigured hread
    · exact .misread work file line column token hc hw ((hfails.malformed_iff token).1 hcall)

theorem faulty_iff (disk : Disk) (input : ByteArray) (given : Option Path) (request : Request)
    (failure : Failure) :
    failure ≠ .configurationMissing ∧ Ends disk input given request (.error failure) ↔
      Faulty disk input given request failure := by
  constructor
  · rintro ⟨hne, h⟩
    generalize hresult : (Except.error failure : Except Failure (Option Answer)) = result at h
    cases h with
    | refused other h =>
      cases hresult
      exact .refused failure h
    | called work hs hw => exact called_faulty hs hw hresult.symm hne
  · exact Faulty.ends

end Ending

/-! ## What is answered to a result -/

theorem unlines_ne_nil (line : Text) (lines : List Text) :
    Report.unlines (line :: lines) ≠ [] := by simp [Report.unlines]

theorem exitCode_eq (failure : Failure) :
    exitCode failure = if failure = .configurationMissing then 1 else 3 := by
  cases failure <;> rfl

section Responding

variable (format : Format) (result : Except Failure (Option Answer))

def codeOf : Except Failure (Option Answer) → Nat
  | .ok (some _) => 0
  | .ok none => 1
  | .error failure => exitCode failure

theorem respond_exit : (respond format result).exit = codeOf result := by
  rcases result with failure | _ | found
  · rfl
  · cases format <;> rfl
  · cases format <;> rfl

theorem codeOf_zero : codeOf result = 0 ↔ ∃ found, result = .ok (some found) := by
  rcases result with failure | _ | found
  · by_cases h : failure = .configurationMissing <;> simp [codeOf, exitCode_eq, h]
  · simp [codeOf]
  · simp [codeOf]

theorem codeOf_one :
    codeOf result = 1 ↔ result = .ok none ∨ result = .error .configurationMissing := by
  rcases result with failure | _ | found
  · by_cases h : failure = .configurationMissing <;> simp [codeOf, exitCode_eq, h]
  · simp [codeOf]
  · simp [codeOf]

theorem codeOf_three :
    codeOf result = 3 ↔ ∃ failure, failure ≠ .configurationMissing ∧ result = .error failure := by
  rcases result with failure | _ | found
  · by_cases h : failure = .configurationMissing <;> simp [codeOf, exitCode_eq, h]
  · simp [codeOf]
  · simp [codeOf]

theorem respond_silent :
    (respond format result).output = [] ↔
      (∃ failure, result = .error failure) ∨ format = .text ∧ result = .ok none := by
  rcases result with failure | _ | found
  · simp [respond]
  · cases format <;> simp [respond, unlines_ne_nil]
  · cases format <;> simp [respond, unlines_ne_nil]

end Responding

/-! ## The exit code -/

/-- The exit code of accepted arguments tells how their request ends, in either format. -/
structure Classified (disk : Disk) (input : ByteArray) (arguments : List Text)
    (invocation : Invocation) : Prop where
  ends_once : ∃ result, ∀ other,
    Ends disk input invocation.environment invocation.request other ↔ other = result
  zero_iff : (run disk input arguments).exit = 0 ↔
    ∃ found, Ends disk input invocation.environment invocation.request (.ok (some found))
  one_iff : (run disk input arguments).exit = 1 ↔
    Ends disk input invocation.environment invocation.request (.ok none) ∨
      Ends disk input invocation.environment invocation.request (.error .configurationMissing)
  three_iff : (run disk input arguments).exit = 3 ↔ ∃ failure,
    failure ≠ .configurationMissing ∧
      Ends disk input invocation.environment invocation.request (.error failure)
  faulty : ∀ failure, failure ≠ .configurationMissing ∧
      Ends disk input invocation.environment invocation.request (.error failure) ↔
    Faulty disk input invocation.environment invocation.request failure
  silent_iff : (run disk input arguments).output = [] ↔
    (∃ failure, Ends disk input invocation.environment invocation.request (.error failure)) ∨
      invocation.format = .text ∧
        Ends disk input invocation.environment invocation.request (.ok none)
  formats : ∀ others format, parse others = some { invocation with format } →
    (run disk input others).exit = (run disk input arguments).exit
  misspelt : ∀ text, invocation.request.numeral? = some text → Numeral.parse text = none →
    ∀ disk input, (run disk input arguments).exit = 3

theorem run_classified (disk : Disk) (input : ByteArray) (arguments : List Text)
    (invocation : Invocation) (h : parse arguments = some invocation) :
    Classified disk input arguments invocation := by
  have hexit (disk : Disk) (input : ByteArray) (others : List Text) (format : Format)
      (h : parse others = some { invocation with format }) :
      (run disk input others).exit =
        codeOf (answer disk input invocation.environment invocation.request) := by
    rw [run, h]
    exact respond_exit _ _
  have hrun := hexit disk input arguments invocation.format h
  have hends := ends_iff disk input invocation.environment invocation.request
  refine ⟨⟨_, hends⟩, ?_, ?_, ?_, faulty_iff _ _ _ _, ?_, fun others format ho => ?_,
    fun text hn hp disk input => ?_⟩
  · rw [hrun, codeOf_zero]
    exact exists_congr fun found => eq_comm.trans (hends _).symm
  · rw [hrun, codeOf_one, hends, hends, eq_comm, @eq_comm _ (answer _ _ _ _) (.error _)]
  · rw [hrun, codeOf_three]
    exact exists_congr fun failure => and_congr_right fun _ => eq_comm.trans (hends _).symm
  · rw [run, h, respond_silent, hends]
    simp only [hends, eq_comm]
  · rw [hexit disk input others format ho, hrun]
  · rw [hexit disk input arguments invocation.format h, answer_misspelt hn hp]
    rfl

/-- A numeral with a letter in it, and no document to look into. -/
theorem run_classified_misspelt :
    parse ["instrument".toList, "song.mml".toList, "0".toList, "1x".toList] =
        some ⟨.instrument "song.mml".toList 0 "1x".toList, none, .text⟩ ∧
      (run (Disk.empty []) .empty
        ["instrument".toList, "song.mml".toList, "0".toList, "1x".toList]).exit = 3 := by
  have h : parse ["instrument".toList, "song.mml".toList, "0".toList, "1x".toList] =
      some ⟨.instrument "song.mml".toList 0 "1x".toList, none, .text⟩ := rfl
  have hclassified := run_classified (Disk.empty []) .empty _ _ h
  exact ⟨h, hclassified.misspelt "1x".toList rfl (by decide) _ _⟩

end MmlLookup.Command
