import Rendezvous.Address

/-!
# Reading internet addresses

An address text is four decimal numbers, or up to eight hexadecimal groups of which one
run may be left out and the last two may be written as four decimal numbers. Nothing may
follow the address.
-/

namespace Rendezvous.Address

open Text

/-- A number of 1 to `limit` digits, and what follows its digits. -/
def readDigits? (base limit : Nat) (text : List Char) : Option (List Nat × List Char) :=
  let digits := (text.map (digitValue? base)).takeWhile Option.isSome
  if 1 ≤ digits.length ∧ digits.length ≤ limit then
    some (digits.filterMap id, text.drop digits.length)
  else none

def ofDigits (base : Nat) (digits : List Nat) : Nat :=
  digits.foldl (fun n d => base * n + d) 0

/-- A decimal number below 256 without leading zeros. -/
def readOctet? (text : List Char) : Option (UInt8 × List Char) := do
  let (digits, rest) ← readDigits? 10 3 text
  let n := ofDigits 10 digits
  if n < 256 ∧ (digits.length = 1 ∨ digits.head? ≠ some 0) then some (UInt8.ofNat n, rest)
  else none

/-- A hexadecimal number of at most four digits. -/
def readGroup? (text : List Char) : Option (Nat × List Char) := do
  let (digits, rest) ← readDigits? 16 4 text
  some (ofDigits 16 digits, rest)

/-- What follows a character that has to stand in front. -/
def expect? (c : Char) : List Char → Option (List Char)
  | [] => none
  | d :: rest => if d = c then some rest else none

def readV4? (text : List Char) : Option (Vector UInt8 4 × List Char) := do
  let (a, rest) ← readOctet? text
  let (b, rest) ← readOctet? (← expect? '.' rest)
  let (c, rest) ← readOctet? (← expect? '.' rest)
  let (d, rest) ← readOctet? (← expect? '.' rest)
  some (#v[a, b, c, d], rest)

/-- As many groups as can be read, at most `limit`. -/
structure Groups where
  values : List Nat
  /-- Whether the last two groups were written as four decimal numbers. -/
  endsInV4 : Bool
  rest : List Char

/-- Read groups with colons between; `isFirst` tells that no colon stands before the next one. -/
def readGroups : Nat → Bool → List Char → Groups
  | 0, _, text => ⟨[], false, text⟩
  | limit + 1, isFirst, text =>
      match (if isFirst then some text else expect? ':' text) with
      | none => ⟨[], false, text⟩
      | some here =>
          match (if 1 ≤ limit then readV4? here else none) with
          | some (octets, rest) => ⟨groups octets.toList, true, rest⟩
          | none =>
              match readGroup? here with
              | none => ⟨[], false, text⟩
              | some (g, rest) =>
                  let following := readGroups limit false rest
                  ⟨g :: following.values, following.endsInV4, following.rest⟩

def ofGroups? (groups : List Nat) : Option (Vector UInt8 16) :=
  let octets := octetsOfGroups groups
  if h : octets.length = 16 then some ⟨octets.toArray, by simp [h]⟩ else none

/-- Eight groups, or fewer with `::` for at least one group of zeros. -/
def readV6? (text : List Char) : Option (Vector UInt8 16 × List Char) := do
  let front := readGroups 8 true text
  if front.values.length = 8 then
    some (← ofGroups? front.values, front.rest)
  else if front.endsInV4 then none
  else
    let rest ← expect? ':' (← expect? ':' front.rest)
    let back := readGroups (7 - front.values.length) true rest
    let gap := List.replicate (8 - front.values.length - back.values.length) 0
    some (← ofGroups? (front.values ++ gap ++ back.values), back.rest)

def ofChars? (text : List Char) : Option Address :=
  match readV4? text with
  | some (octets, rest) => if rest.isEmpty then some (.v4 octets) else none
  | none =>
      match readV6? text with
      | some (octets, rest) => if rest.isEmpty then some (.v6 octets) else none
      | none => none

def ofString? (text : String) : Option Address := ofChars? text.toList

end Rendezvous.Address
