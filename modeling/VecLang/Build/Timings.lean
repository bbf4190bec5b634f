import VecLang.Text.Bytes

/-!
# Timings

How long the stages of a build took, in microseconds.
-/

namespace VecLang.Build

/-- The durations that are known, each stage once. -/
structure Timings where
  stages : List (Bytes × Int) := []
deriving Inhabited

namespace Timings

/-- Note the duration of a stage, in place of what was noted before. -/
def set (t : Timings) (stage : Bytes) (micros : Int) : Timings :=
  ⟨(stage, micros) :: t.stages.filter (·.1 ≠ stage)⟩

def has (t : Timings) (stage : Bytes) : Bool := (t.stages.lookup stage).isSome

def duration (t : Timings) (stage : Bytes) : Int := (t.stages.lookup stage).getD 0

def sum (t : Timings) (stages : List Bytes) : Int := (stages.map t.duration).foldr (· + ·) 0

end Timings

end VecLang.Build
