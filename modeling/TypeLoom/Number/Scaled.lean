import TypeLoom.Number.Double

/-! Decimals read with a significand of 64 bits. Digits beyond that are dropped, the significand is
rounded to a double and then multiplied or divided once by a power of ten, itself a double. The
result may be next to the nearest double; decimals of up to 15 digits and small exponents come out
exact. -/
namespace TypeLoom.Double

def maxSignificand : Nat := 0xFFFFFFFFFFFFFFFF

/-- Take digits as long as the significand keeps to 64 bits; the other digits are left over. -/
def takeDigits : (significand : Nat) → (digits : List Nat) → Nat × List Nat
  | significand, [] => (significand, [])
  | significand, d :: rest =>
    if maxSignificand < significand * 10 + d then (significand, d :: rest)
    else takeDigits (significand * 10 + d) rest

def powerOfTen (n : Nat) : Double :=
  nearest false (tenTo n) 1

/-- Divide by ten `places` times; beyond the largest power of ten in steps of that power. A
significand of 64 bits vanishes after two such steps. -/
def scaleDown : (steps : Nat) → Double → (places : Nat) → Double
  | 0, x, _ => x
  | steps + 1, x, places =>
    if places ≤ 308 then x.div (powerOfTen places)
    else if x.magnitude = 0 then x
    else scaleDown steps (x.div (powerOfTen 308)) (places - 308)

/-- `significand * 10 ^ scale`, unless it is too large. -/
def scaled? (significand : Nat) (scale : Int) : Option Double :=
  let x := nearest false significand 1
  if scale < 0 then some (scaleDown 4 x (-scale).toNat)
  else if 308 < scale then (if significand = 0 then some x else none)
  else
    let y := x.mul (powerOfTen scale.toNat)
    if y.isInfinite then none else some y

end TypeLoom.Double
