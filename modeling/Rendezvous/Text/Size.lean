/-!
# The size of a text

The bytes that characters take in UTF-8, the boundaries between the characters of a text,
and the search back for the last boundary that is not after some byte.
-/

namespace Rendezvous.Text

def byteCount : List Char → Nat
  | [] => 0
  | c :: rest => c.utf8Size + byteCount rest

theorem utf8ByteSize_ofList (chars : List Char) :
    (String.ofList chars).utf8ByteSize = byteCount chars := by
  induction chars with
  | nil => rfl
  | cons c chars ih =>
      rw [String.ofList_cons, String.utf8ByteSize_append, String.utf8ByteSize_singleton, ih,
        byteCount]

theorem byteCount_toList (text : String) : byteCount text.toList = text.utf8ByteSize := by
  rw [← utf8ByteSize_ofList, String.ofList_toList]

variable {text : String} {i stop : Nat}

/-- A character starts at byte `i` of the text, or the text ends there. -/
def IsBoundary (text : String) (i : Nat) : Prop :=
  String.Pos.Raw.IsValid text ⟨i⟩

instance : Decidable (IsBoundary text i) :=
  inferInstanceAs (Decidable (String.Pos.Raw.IsValid text ⟨i⟩))

theorem isBoundary_zero : IsBoundary text 0 :=
  String.Pos.Raw.isValid_zero

/-- The last boundary up to byte `i`, looked for from there one byte back at a time. Nothing
is in front of byte zero, so a search that would have to go on from there finds none. -/
def lastBoundary? (text : String) : Nat → Option Nat
  | 0 => if IsBoundary text 0 then some 0 else none
  | i + 1 => if IsBoundary text (i + 1) then some (i + 1) else lastBoundary? text i

theorem isSome_lastBoundary? (text : String) (i : Nat) : (lastBoundary? text i).isSome := by
  induction i with
  | zero => rw [lastBoundary?, if_pos isBoundary_zero, Option.isSome_some]
  | succ i ih =>
      rw [lastBoundary?]
      split
      · exact Option.isSome_some
      · exact ih

theorem boundary_of_lastBoundary? (h : lastBoundary? text i = some stop) :
    IsBoundary text stop ∧ stop ≤ i := by
  induction i with
  | zero =>
      rw [lastBoundary?, if_pos isBoundary_zero, Option.some.injEq] at h
      exact h ▸ ⟨isBoundary_zero, Nat.zero_le _⟩
  | succ i ih =>
      rw [lastBoundary?] at h
      split at h
      next hboundary =>
        rw [Option.some.injEq] at h
        exact h ▸ ⟨hboundary, Nat.le_refl _⟩
      next =>
        obtain ⟨hboundary, hle⟩ := ih h
        exact ⟨hboundary, Nat.le_succ_of_le hle⟩

/-- What stands in front of a boundary. -/
def before (text : String) (stop : Nat) (h : IsBoundary text stop) : String :=
  String.fromUTF8 (text.toByteArray.extract 0 stop) h.isValidUTF8_extract_zero

theorem utf8ByteSize_before_le (h : IsBoundary text stop) :
    (before text stop h).utf8ByteSize ≤ stop := by
  rw [before, String.utf8ByteSize, String.fromUTF8, ByteArray.size_extract]
  exact Nat.min_le_left _ _

end Rendezvous.Text
