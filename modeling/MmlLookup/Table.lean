import MmlLookup.Text.Basic

/-!
# Built-in tables

On the envelope parts `G`, `H` and `I` an instrument number selects one of ten
envelope presets. On the rhythm part `R` it is a mask with one bit per drum voice.
Neither needs a document.
-/

set_option autoImplicit false

namespace MmlLookup

inductive Table where
  | envelope
  | rhythm
  deriving DecidableEq

namespace Table

def ofLine : Text → Option Table
  | 'G' :: _ => some envelope
  | 'H' :: _ => some envelope
  | 'I' :: _ => some envelope
  | 'R' :: _ => some rhythm
  | _ => none

def envelopePresets : List String :=
  [ "E0,0,0,0\tDefault",
    "E2,-1,0,1\tSynth type 1",
    "E2,-2,0,1\tSynth type 2",
    "E2,-2,0,8\tSynth type 3",
    "E2,-1,24,1\tPiano type 1",
    "E2,-2,24,1\tPiano type 2",
    "E2,-2,4,1\tGlockenspiel/Marimba type",
    "E2,1,0,1\tStrings Type",
    "E1,2,0,1\tBrass type 1",
    "E1,2,24,1\tBrass type 2" ]

def drumVoices : List String :=
  [ "Bass Drum", "Snare Drum 1", "Low Tom", "Middle Tom", "High Tom", "Rim Shot",
    "Snare Drum 2", "Hi-Hat Close", "Hi-Hat Open", "Crash Cymbal", "Ride Cymbal" ]

/-- The largest drum mask, the last voice alone. -/
def maxMask : Nat := 1024

def envelopeLabel (id : Nat) : Option Text := envelopePresets[id]?.map String.toList

/-- The voices whose bits are set, the lowest bit first. -/
def selected {α : Type} : Nat → List α → List α
  | _, [] => []
  | mask, voice :: voices =>
    if mask % 2 = 1 then voice :: selected (mask / 2) voices else selected (mask / 2) voices

def enumerate : List Text → Text
  | [] => []
  | [label] => label
  | label :: next :: labels => label ++ ',' :: ' ' :: enumerate (next :: labels)

/-- The voices of a drum mask; no voice at all is the empty label. -/
def drumLabel (mask : Nat) : Option Text :=
  if mask ≤ maxMask then some (enumerate ((selected mask drumVoices).map String.toList)) else none

def label : Table → Nat → Option Text
  | envelope => envelopeLabel
  | rhythm => drumLabel

def source : Table → Text
  | envelope => "SSG Software Envelope".toList
  | rhythm => "SSG Rhythm Definition".toList

end Table

end MmlLookup
