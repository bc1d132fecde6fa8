import Rendezvous.Text.Numeral

/-!
# Hexadecimal digits and bytes

The sixteen digits in either case, and bytes as pairs of lower-case digits. Main
statements: the value read off a character is its place among the digits of its case, and
the digits written for a byte read back as that byte.
-/

namespace Rendezvous.Text

/-- The digits in lower case, each at the place of its value. -/
def lowerHex : List Char :=
  ['0', '1', '2', '3', '4', '5', '6', '7', '8', '9', 'a', 'b', 'c', 'd', 'e', 'f']

/-- The digits in upper case, each at the place of its value. -/
def upperHex : List Char :=
  ['0', '1', '2', '3', '4', '5', '6', '7', '8', '9', 'A', 'B', 'C', 'D', 'E', 'F']

/-- Whether a character is the hexadecimal digit of a value, in either case. -/
def IsHexDigit (c : Char) (n : Nat) : Prop := lowerHex[n]? = some c ∨ upperHex[n]? = some c

instance (c : Char) (n : Nat) : Decidable (IsHexDigit c n) := inferInstanceAs (Decidable (_ ∨ _))

theorem IsHexDigit.lt {c : Char} {n : Nat} (h : IsHexDigit c n) : n < 16 := by
  rcases h with h | h <;> exact (List.getElem?_eq_some_iff.1 h).1

/-- Every digit stands below the first character that is not ASCII. -/
theorem toNat_lt_of_digitValue? {c : Char} {n : Nat} (h : digitValue? 16 c = some n) :
    c.toNat < 128 := by
  have hnine : '9'.toNat < 128 := by decide
  have hlast : 'z'.toNat < 128 := by decide
  have hLast : 'Z'.toNat < 128 := by decide
  simp only [digitValue?] at h
  split at h
  · rename_i hc
    exact Nat.lt_of_le_of_lt hc.2 hnine
  · split at h
    · rename_i hc
      exact Nat.lt_of_le_of_lt hc.2 hlast
    · split at h
      · rename_i hc
        exact Nat.lt_of_le_of_lt hc.2 hLast
      · simp at h

theorem digitValue?_eq_some_iff {c : Char} {n : Nat} :
    digitValue? 16 c = some n ↔ IsHexDigit c n := by
  have hascii : ∀ k < 128, ∀ n ∈ digitValue? 16 (Char.ofNat k), IsHexDigit (Char.ofNat k) n := by
    decide
  have hlower : ∀ n < 16, lowerHex[n]?.bind (digitValue? 16) = some n := by decide
  have hupper : ∀ n < 16, upperHex[n]?.bind (digitValue? 16) = some n := by decide
  constructor
  · intro h
    have hdigit := hascii c.toNat (toNat_lt_of_digitValue? h) n (by rwa [Char.ofNat_toNat])
    rwa [Char.ofNat_toNat] at hdigit
  · intro h
    have hn := h.lt
    rcases h with h | h
    · simpa only [h, Option.bind_some] using hlower n hn
    · simpa only [h, Option.bind_some] using hupper n hn

namespace Hex

def encodeByte (b : UInt8) : List Char :=
  [digitChar (b.toNat / 16), digitChar (b.toNat % 16)]

/-- Two digits per byte, with nothing between. -/
def encode (bytes : List UInt8) : List Char :=
  bytes.flatMap encodeByte

def decodeByte? (high low : Char) : Option UInt8 := do
  let h ← digitValue? 16 high
  let l ← digitValue? 16 low
  return UInt8.ofNat (16 * h + l)

/-- Refuses a text that is not made of digit pairs. -/
def decode? : List Char → Option (List UInt8)
  | [] => some []
  | [_] => none
  | high :: low :: rest => do
      let b ← decodeByte? high low
      let bytes ← decode? rest
      return b :: bytes

theorem decodeByte?_encodeByte (b : UInt8) :
    decodeByte? (digitChar (b.toNat / 16)) (digitChar (b.toNat % 16)) = some b := by
  have hb : b.toNat < 256 := b.toNat_lt
  have hh : b.toNat / 16 < 16 := by omega
  have hl : b.toNat % 16 < 16 := by omega
  have hv : 16 * (b.toNat / 16) + b.toNat % 16 = b.toNat := Nat.div_add_mod _ _
  simp only [decodeByte?, digitValue?_digitChar hh, digitValue?_digitChar hl, Option.bind_eq_bind,
    Option.bind_some, hv, UInt8.ofNat_toNat]
  rfl

end Hex

end Rendezvous.Text
