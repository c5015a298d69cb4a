import ScreenSearch.Traits.Sessions

/-!
# Session confidence

Anchored sessions (a recognized tool or meeting) score in `0.70..0.95` and lose
up to `0.25` as absorbed time rises; focus sessions with a dominant stem score
in `0.45..0.65`, without one `0.30`.
-/

namespace ScreenSearch.Sessions

/-- `f64::clamp`. -/
def clamp (x lo hi : Rat) : Rat :=
  if x < lo then lo else if hi < x then hi else x

def anchoredConfidence (recognizedMs absorbedMs : Int) : Rat :=
  let recognized : Rat := max recognizedMs 0
  let absorbed : Rat := max absorbedMs 0
  let total := recognized + absorbed
  let absorbedShare := if 0 < total then absorbed / total else 1
  clamp (95 / 100 - 25 / 100 * absorbedShare) (70 / 100) (95 / 100)

def focusConfidence (dominantStem : Option String) (densityFph : Rat) (densityGateFph : Int) :
    Rat :=
  if dominantStem.all String.isEmpty then 30 / 100
  else if densityGateFph ≤ 0 then 60 / 100
  else
    let ratio := clamp (densityFph / densityGateFph) 1 2
    45 / 100 + (ratio - 1) * (20 / 100)

end ScreenSearch.Sessions
