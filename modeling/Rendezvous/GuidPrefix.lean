import Rendezvous.Text.Blank
import Rendezvous.Text.Hex
import Rendezvous.Text.Split

/-!
# GUID prefixes

Twelve bytes that identify a participant, and their text: two lower-case hexadecimal
digits for each byte, with points between. Reading is wider than writing: it drops blank
characters at both ends, and takes a byte in upper case, in one digit, or in one digit
after a plus sign.
-/

namespace Rendezvous

open Std Text

/-- The twelve bytes that identify a participant. -/
structure GuidPrefix where
  bytes : Vector UInt8 12
  deriving DecidableEq, Repr

namespace GuidPrefix

def length : Nat := 12

/-- Prefixes are ordered by their bytes, the first byte first. -/
instance : Ord GuidPrefix := ⟨compareOn GuidPrefix.bytes⟩

instance : TransOrd GuidPrefix := inferInstanceAs (TransCmp (compareOn GuidPrefix.bytes))

instance : LawfulEqOrd GuidPrefix where
  compare_self := ReflCmp.compare_self
  eq_of_compare {a b} h := by
    cases a
    cases b
    exact congrArg GuidPrefix.mk (LawfulEqOrd.eq_of_compare h)

instance : Inhabited GuidPrefix := ⟨⟨.replicate 12 0⟩⟩

def ofBytes? (bytes : List UInt8) : Option GuidPrefix :=
  if h : bytes.length = 12 then some ⟨⟨bytes.toArray, by simp [h]⟩⟩ else none

def chars (p : GuidPrefix) : List Char :=
  joinWith '.' (p.bytes.toList.map Hex.encodeByte)

def text (p : GuidPrefix) : String := String.ofList p.chars

/-- The byte that one part of a text stands for: one digit, two digits, or one after a plus. -/
def readPart? : List Char → Option UInt8
  | [d] => (digitValue? 16 d).map UInt8.ofNat
  | [h, l] => if h = '+' then (digitValue? 16 l).map UInt8.ofNat else Hex.decodeByte? h l
  | _ => none

/-- Refuses a text that is not made of twelve parts with points between. -/
def ofChars? (text : List Char) : Option GuidPrefix := do
  ofBytes? (← (splitOn '.' (trim text)).mapM readPart?)

/-- The wording for a text that stands for no prefix; it shows the text as it was given. -/
def invalidMessage (text : String) : String :=
  "invalid GUID prefix '" ++ text ++ "'"

def parse (text : String) : Except String GuidPrefix :=
  match ofChars? text.toList with
  | some p => .ok p
  | none => .error (invalidMessage text)

end GuidPrefix

end Rendezvous
