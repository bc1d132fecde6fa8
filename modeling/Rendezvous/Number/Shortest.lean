import Rendezvous.Number.Binary64
import Rendezvous.Text.Numeral

/-!
# Shortest decimals

The fewest decimal digits that still round to a given double-precision magnitude, and
their layout as a text. A magnitude lies in an interval of the reals that round to it;
for 1, 2, … digits the two neighbours of the value on the decimal grid are tried, and
the first grid with a point in the interval gives the digits.
-/

namespace Rendezvous

namespace Shortest

open Binary64 (tenTo)

/-- The interval of the reals that round to a magnitude, over a common denominator: its ends,
the value itself, and whether the ends belong to it. -/
structure Interval where
  low : Nat
  value : Nat
  high : Nat
  den : Nat
  closed : Bool
  deriving Repr

/-- The ends lie half-way to the neighbours; at a power of two the lower neighbour is nearer. -/
def intervalOf (x : Binary64) : Interval :=
  let atPower := x.mantissa = Binary64.leastFull ∧ x.exponent > Binary64.minExponent
  let (n, d) := Binary64.scale 1 1 (x.exponent - 2)
  { low := (4 * x.mantissa - if atPower then 1 else 2) * n
    value := 4 * x.mantissa * n
    high := (4 * x.mantissa + 2) * n
    den := d
    closed := x.mantissa % 2 == 0 }

def digitCount (n : Nat) : Nat := (Text.decimal n).length

/-- The exponent of the greatest power of ten that is at most `num / den`. -/
def floorLog10 (num den : Nat) : Int :=
  if den ≤ num then Int.ofNat (digitCount (num / den)) - 1
  else -Int.ofNat (digitCount ((den + num - 1) / num - 1))

/-- A decimal number `digits * 10 ^ power`. -/
structure Decimal where
  digits : Nat
  power : Int
  deriving DecidableEq, Repr

def Decimal.toQuotient (x : Decimal) : Nat × Nat :=
  if 0 ≤ x.power then (x.digits * tenTo x.power.toNat, 1) else (x.digits, tenTo (-x.power).toNat)

def Interval.holds (i : Interval) (x : Decimal) : Bool :=
  let (n, d) := x.toQuotient
  let left := i.low * d
  let right := i.high * d
  let middle := n * i.den
  if i.closed then left ≤ middle && middle ≤ right else left < middle && middle < right

/-- The distance from the value, over the product of the denominators. -/
def Interval.distance (i : Interval) (x : Decimal) : Nat :=
  let (n, d) := x.toQuotient
  let middle := n * i.den
  let value := i.value * d
  max middle value - min middle value

/-- The neighbours of the value on the grid of `10 ^ power`, the nearer first; of two that are as
near the even one is first. -/
def neighbours (i : Interval) (power : Int) : List Decimal :=
  let floor :=
    if 0 ≤ power then i.value / (i.den * tenTo power.toNat)
    else i.value * tenTo (-power).toNat / i.den
  let below : Decimal := ⟨floor, power⟩
  let above : Decimal := ⟨floor + 1, power⟩
  let toAbove := i.distance above
  let toBelow := i.distance below
  if toAbove < toBelow ∨ toAbove = toBelow ∧ floor % 2 = 1 then [above, below]
  else [below, above]

/-- Try grids from `power` downwards, for at most the given number of digits. -/
def search (i : Interval) : Nat → Int → Decimal
  | 0, power => ⟨i.value / i.den, power⟩
  | digits + 1, power =>
      match (neighbours i power).find? i.holds with
      | some x => x
      | none => search i digits (power - 1)

/-- Seventeen digits tell all magnitudes apart. -/
def maxDigits : Nat := 17

/-- The shortest decimal of a magnitude other than zero. -/
def shortest (x : Binary64) : Decimal :=
  let i := intervalOf x
  search i maxDigits (floorLog10 i.value i.den)

structure Layout where
  minPlain : Int
  maxPlain : Int

def dropZeros (digits : List Char) : List Char :=
  (digits.reverse.dropWhile (· == '0')).reverse

/-- The text of `d.ddd * 10 ^ exponent` for the digits given. -/
def render (layout : Layout) (digits : List Char) (exponent : Int) : List Char :=
  if layout.minPlain ≤ exponent ∧ exponent < 0 then
    '0' :: '.' :: List.replicate (-exponent - 1).toNat '0' ++ digits
  else if 0 ≤ exponent ∧ exponent ≤ layout.maxPlain then
    let whole := exponent.toNat + 1
    if digits.length ≤ whole then
      digits ++ List.replicate (whole - digits.length) '0' ++ ['.', '0']
    else digits.take whole ++ '.' :: digits.drop whole
  else
    let fraction := digits.drop 1
    digits.take 1 ++ (if fraction.isEmpty then [] else '.' :: fraction) ++
      ['e', if exponent < 0 then '-' else '+'] ++ Text.decimal exponent.natAbs

def text (layout : Layout) (x : Binary64) : List Char :=
  if x.isZero then ['0', '.', '0']
  else
    let decimal := shortest x
    let digits := Text.decimal decimal.digits
    render layout (dropZeros digits) (decimal.power + Int.ofNat digits.length - 1)

end Shortest

end Rendezvous
