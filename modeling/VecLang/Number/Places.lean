import VecLang.Text.Bytes
import VecLang.Number.Binary32

/-!
# Quotients with a fixed number of places

A quotient is first rounded to the nearest number of double precision, and that number is then
written with a fixed number of places, a half going to the even neighbour.
-/

namespace VecLang.Places

open Binary32

/-- The nearest number of double precision to `num / den`, for numbers of ordinary size, as a
fraction. -/
def nearestDouble (num den : Nat) : Nat × Nat :=
  if num = 0 then (0, 1)
  else
    -- 53 binary digits are kept
    let q := log2Ratio num den - 52
    if q ≥ 0 then (roundDiv num (den * Nat.pow 2 q.toNat) * Nat.pow 2 q.toNat, 1)
    else (roundDiv (num * Nat.pow 2 (-q).toNat) den, Nat.pow 2 (-q).toNat)

def text (places num den : Nat) : Bytes :=
  let (n, d) := nearestDouble num den
  let scaled := roundDiv (n * Nat.pow 10 places) d
  let frac := Bytes.ofNat (scaled % Nat.pow 10 places)
  Bytes.ofNat (scaled / Nat.pow 10 places) ++ "."
    ++ Bytes.replicate (places - frac.length) 0x30 ++ frac

end VecLang.Places
