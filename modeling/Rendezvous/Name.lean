import Rendezvous.Text.Size

/-!
# Bounded names

Topic and type names are cut to a number of bytes that leaves room for a terminator in
C data. A name that is too long is cut at the last boundary between characters that fits.
-/

namespace Rendezvous

open Text

/-- The greatest number of bytes of a name. -/
def nameLimit : Nat := 254

/-- A name that fits. -/
structure BoundedName where
  chars : List Char
  bounded : byteCount chars ≤ nameLimit := by decide
  deriving DecidableEq

namespace BoundedName

/-- Where a name that is too long is cut. -/
def cutPlace (text : String) : Nat :=
  (lastBoundary? text nameLimit).get (isSome_lastBoundary? text nameLimit)

theorem lastBoundary?_nameLimit (text : String) :
    lastBoundary? text nameLimit = some (cutPlace text) :=
  (Option.some_get _).symm

theorem isBoundary_cutPlace (text : String) : IsBoundary text (cutPlace text) :=
  (boundary_of_lastBoundary? (lastBoundary?_nameLimit text)).1

theorem cutPlace_le (text : String) : cutPlace text ≤ nameLimit :=
  (boundary_of_lastBoundary? (lastBoundary?_nameLimit text)).2

/-- The name, cut if it does not fit. -/
def ofString (text : String) : BoundedName :=
  if h : text.utf8ByteSize ≤ nameLimit then
    ⟨text.toList, by rwa [byteCount_toList]⟩
  else
    ⟨(before text (cutPlace text) (isBoundary_cutPlace text)).toList, by
      rw [byteCount_toList]
      exact Nat.le_trans (utf8ByteSize_before_le _) (cutPlace_le text)⟩

def text (n : BoundedName) : String := String.ofList n.chars

instance : Repr BoundedName := ⟨fun n => reprPrec n.text⟩

def bytes (n : BoundedName) : List UInt8 := n.text.toUTF8.data.toList

end BoundedName

end Rendezvous
