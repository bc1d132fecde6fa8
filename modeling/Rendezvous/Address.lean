import Rendezvous.Text.Numeral
import Rendezvous.Text.Split

/-!
# Internet addresses

Addresses of both families as bytes, and their canonical texts: four decimal numbers for
the one, groups of hexadecimal digits with the longest run of zero groups left out for
the other.
-/

namespace Rendezvous

open Text

/-- An internet address, the most significant byte first. -/
inductive Address where
  | v4 (octets : Vector UInt8 4)
  | v6 (octets : Vector UInt8 16)
  deriving DecidableEq, Repr

namespace Address

def unspecified : Address := .v4 (.replicate 4 0)

def v4Chars (octets : List UInt8) : List Char :=
  joinWith '.' (octets.map fun o => decimal o.toNat)

def groups : List UInt8 → List Nat
  | high :: low :: rest => (256 * high.toNat + low.toNat) :: groups rest
  | _ => []

def octetsOfGroups (groups : List Nat) : List UInt8 :=
  groups.flatMap fun g => [UInt8.ofNat (g / 256), UInt8.ofNat (g % 256)]

def leadingZeros (groups : List Nat) : Nat :=
  (groups.takeWhile (· == 0)).length

/-- Where the longest run of zero groups starts, the first of several, and its length. -/
def longestZeroRun (groups : List Nat) : Nat × Nat :=
  (List.range groups.length).foldl
    (fun longest start =>
      let length := leadingZeros (groups.drop start)
      if longest.2 < length then (start, length) else longest)
    (0, 0)

def groupChars (groups : List Nat) : List Char :=
  joinWith ':' (groups.map (numeral 16))

/-- Groups with the longest run of two or more zero groups left out. -/
def compressedChars (groups : List Nat) : List Char :=
  let (start, length) := longestZeroRun groups
  if 2 ≤ length then
    groupChars (groups.take start) ++ [':', ':'] ++ groupChars (groups.drop (start + length))
  else groupChars groups

/-- Whether the bytes embed an address of the other family. -/
def isMapped (octets : List UInt8) : Bool :=
  octets.take 12 == List.replicate 10 0 ++ [0xff, 0xff]

def chars : Address → List Char
  | .v4 octets => v4Chars octets.toList
  | .v6 octets =>
      if isMapped octets.toList then
        ':' :: ':' :: 'f' :: 'f' :: 'f' :: 'f' :: ':' :: v4Chars (octets.toList.drop 12)
      else compressedChars (groups octets.toList)

def text (a : Address) : String := String.ofList a.chars

end Address

end Rendezvous
