/-!
# Double-precision magnitudes

The non-negative finite numbers of the binary64 format in exact arithmetic: the nearest
one to a quotient, products and quotients of two, and scaling by a power of ten. An
operation answers `none` where the format would give infinity.
-/

namespace Rendezvous

/-- The magnitude `mantissa * 2 ^ exponent`. -/
structure Binary64 where
  mantissa : Nat
  exponent : Int
  deriving DecidableEq, Repr

namespace Binary64

def minExponent : Int := -1074

def mantissaBits : Nat := 53

/-- The least mantissa with all of its bits. -/
def leastFull : Nat := 1 <<< (mantissaBits - 1)

/-- Zero, at the least exponent. -/
def zero : Binary64 := ⟨0, minExponent⟩

def isZero (x : Binary64) : Bool := x.mantissa == 0

/-- The natural number nearest to `num / den`; a tie goes to the even neighbour. -/
def roundHalfEven (num den : Nat) : Nat :=
  let floor := num / den
  let rest := num % den
  if 2 * rest < den then floor
  else if den < 2 * rest then floor + 1
  else if floor % 2 = 0 then floor
  else floor + 1

/-- The quotient `num / den` times two to the power `e`, again as a quotient. -/
def scale (num den : Nat) (e : Int) : Nat × Nat :=
  if 0 ≤ e then (num <<< e.toNat, den) else (num, den <<< (-e).toNat)

/-- The exponent of the greatest power of two that is at most `num / den`. -/
def floorLog2 (num den : Nat) : Int :=
  let guess : Int := Int.ofNat num.log2 - Int.ofNat den.log2
  let (n, d) := scale num den (-guess)
  if n < d then guess - 1 else guess

/-- The magnitude nearest to `num / den`, ties to even; none if it is too large. -/
def nearest (num den : Nat) : Option Binary64 :=
  if num = 0 then some zero
  else
    let exponent := max (floorLog2 num den - (mantissaBits - 1)) minExponent
    let (n, d) := scale num den (-exponent)
    let mantissa := roundHalfEven n d
    let result : Binary64 :=
      if mantissa = 2 * leastFull then ⟨leastFull, exponent + 1⟩ else ⟨mantissa, exponent⟩
    if result.exponent > 971 then none else some result

def ofNat? (n : Nat) : Option Binary64 := nearest n 1

def mul (x y : Binary64) : Option Binary64 :=
  let (n, d) := scale (x.mantissa * y.mantissa) 1 (x.exponent + y.exponent)
  nearest n d

def div (x y : Binary64) : Option Binary64 :=
  let (n, d) := scale x.mantissa y.mantissa (x.exponent - y.exponent)
  nearest n d

def tenTo (power : Nat) : Nat := Nat.pow 10 power

/-- The greatest power of ten that the format can hold. -/
def maxPowerOfTen : Nat := 308

/-- Divide by `10 ^ power`, in steps of powers that the format can hold. Four full steps bring
every magnitude to zero, so no more are taken. -/
def scaleDown (x : Binary64) (power : Nat) : Option Binary64 := do
  let steps := min ((power - 1) / maxPowerOfTen) 4
  let step ← ofNat? (tenTo maxPowerOfTen)
  let y ← Nat.repeat (fun y => y.bind (·.div step)) steps (some x)
  y.div (← ofNat? (tenTo (min (power - maxPowerOfTen * steps) maxPowerOfTen)))

/-- The magnitude of `significand * 10 ^ power`, rounded once for the significand and once for
the scaling; none if it is too large. -/
def ofDecimal? (significand : Nat) (power : Int) : Option Binary64 := do
  let x ← ofNat? significand
  if power < 0 then x.scaleDown (-power).toNat
  else if power.toNat ≤ maxPowerOfTen then x.mul (← ofNat? (tenTo power.toNat))
  else if x.isZero then some x
  else none

end Binary64

end Rendezvous
