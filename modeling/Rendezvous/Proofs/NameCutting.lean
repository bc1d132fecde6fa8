import Rendezvous.Name
import Mathlib.Data.List.Infix
import Mathlib.Tactic.Ring

/-!
# Where a name is cut

Boundaries of a text are the sizes of its fronts, so the last boundary that is not after
the limit belongs to the longest front that fits. A character takes four bytes at most,
which bounds how far the search goes back. Main statement: cutting a text leaves the
longest front of it that fits, and cutting that once more changes nothing.
-/

namespace Rendezvous

namespace Text

/-! ## Fronts of a text -/

section Fronts

variable {front other chars : List Char}

theorem byteCount_append (front rest : List Char) :
    byteCount (front ++ rest) = byteCount front + byteCount rest := by
  induction front with
  | nil => simp [byteCount]
  | cons c front ih =>
      rw [List.cons_append, byteCount, byteCount, ih, Nat.add_assoc]

theorem byteCount_replicate (n : Nat) (c : Char) :
    byteCount (List.replicate n c) = n * c.utf8Size := by
  induction n with
  | zero => simp [byteCount]
  | succ n ih =>
      rw [List.replicate_succ, byteCount, ih]
      ring

theorem eq_nil_of_byteCount_eq_zero (h : byteCount chars = 0) : chars = [] := by
  cases chars with
  | nil => rfl
  | cons c rest =>
      rw [byteCount] at h
      have hpos := c.utf8Size_pos
      omega

/-- Of two fronts of one text, the one with no more bytes is a front of the other. -/
theorem prefix_of_byteCount_le (hfront : front <+: chars) (hother : other <+: chars)
    (hle : byteCount front ≤ byteCount other) : front <+: other := by
  rcases List.prefix_or_prefix_of_prefix hfront hother with h | ⟨more, rfl⟩
  · exact h
  · rw [byteCount_append] at hle
    have hmore : more = [] := eq_nil_of_byteCount_eq_zero (by omega)
    rw [hmore, List.append_nil]

end Fronts

/-! ## Boundaries -/

section Boundaries

variable {text front : String} {i j stop : Nat}

theorem isBoundary_iff :
    IsBoundary text i ↔ ∃ front, front <+: text.toList ∧ byteCount front = i := by
  constructor
  · intro h
    obtain ⟨front, rest, rfl, hi⟩ := String.Pos.Raw.isValid_iff_exists_append.1 h
    refine ⟨front.toList, ?_, ?_⟩
    · rw [String.toList_append]
      exact List.prefix_append _ _
    · rw [byteCount_toList]
      exact (congrArg String.Pos.Raw.byteIdx hi).symm
  · rintro ⟨front, ⟨rest, htext⟩, rfl⟩
    refine String.Pos.Raw.isValid_iff_exists_append.2
      ⟨String.ofList front, String.ofList rest, ?_, ?_⟩
    · rw [← String.ofList_append, htext, String.ofList_toList]
    · rw [← utf8ByteSize_ofList]
      rfl

theorem utf8ByteSize_before (h : IsBoundary text stop) :
    (before text stop h).utf8ByteSize = stop := by
  rw [before, String.utf8ByteSize, String.fromUTF8, ByteArray.size_extract]
  exact Nat.min_eq_left h.le_utf8ByteSize

theorem bytes_before (h : IsBoundary text stop) :
    (before text stop h).toByteArray.data.toList = text.toByteArray.data.toList.take stop := by
  simp [before, String.fromUTF8, ByteArray.data_extract]

theorem before_prefix (h : IsBoundary text stop) :
    (before text stop h).toList <+: text.toList := by
  obtain ⟨front, ⟨rest, htext⟩, hstop⟩ := isBoundary_iff.1 h
  have hsize : (String.ofList front).toByteArray.size = stop :=
    (utf8ByteSize_ofList front).trans hstop
  have hsplit : text.toByteArray =
      (String.ofList front).toByteArray ++ (String.ofList rest).toByteArray := by
    rw [← String.toByteArray_append, ← String.ofList_append, htext, String.ofList_toList]
  have hbefore : before text stop h = String.ofList front := by
    refine String.toByteArray_inj.1 ?_
    change text.toByteArray.extract 0 stop = _
    rw [hsplit, ByteArray.extract_append_eq_left hsize.symm]
  rw [hbefore, String.toList_ofList]
  exact ⟨rest, htext⟩

/-- The search comes to every boundary on its way back before it goes on. -/
theorem le_of_lastBoundary? (h : lastBoundary? text i = some stop) (hj : IsBoundary text j)
    (hle : j ≤ i) : j ≤ stop := by
  induction i with
  | zero => exact hle.trans (Nat.zero_le _)
  | succ i ih =>
      rw [lastBoundary?] at h
      split at h
      next =>
        rw [Option.some.injEq] at h
        exact h ▸ hle
      next hno =>
        refine ih h (Nat.le_of_lt_succ (Nat.lt_of_le_of_ne hle ?_))
        rintro rfl
        exact hno hj

end Boundaries

end Text

/-! ## The longest front that fits -/

/-- Every front of the text that fits is a front of the name, which is one of them. -/
structure BoundedName.IsLongestFit (name : BoundedName) (text : String) : Prop where
  front : name.chars <+: text.toList
  longest : ∀ front, front <+: text.toList → Text.byteCount front ≤ nameLimit →
    front <+: name.chars

/-- The name is what the search for a boundary leaves of a text that is too long. -/
structure BoundedName.IsCutFrom (name : BoundedName) (text : String) : Prop where
  search : ∃ stop, Text.lastBoundary? text nameLimit = some stop ∧
    name.bytes = text.toUTF8.data.toList.take stop
  atLeast : 251 ≤ name.bytes.length
  atMost : name.bytes.length ≤ 254
  next : ∃ c, name.chars ++ [c] <+: text.toList ∧ 254 < name.bytes.length + c.utf8Size

namespace BoundedName

open Text

variable {text : String} {name other : BoundedName}

theorem length_bytes (name : BoundedName) : name.bytes.length = byteCount name.chars :=
  utf8ByteSize_ofList name.chars

theorem IsLongestFit.eq (h : name.IsLongestFit text) (hother : other.IsLongestFit text) :
    name = other := by
  have hchars : name.chars = other.chars :=
    (hother.longest _ h.front name.bounded).eq_of_length_le
      (h.longest _ hother.front other.bounded).length_le
  obtain ⟨chars, bounded⟩ := name
  obtain ⟨chars', bounded'⟩ := other
  simpa using hchars

theorem chars_of_fits (h : text.utf8ByteSize ≤ nameLimit) :
    (ofString text).chars = text.toList := by
  rw [ofString, dif_pos h]

theorem chars_of_exceeds (h : nameLimit < text.utf8ByteSize) :
    (ofString text).chars = (before text (cutPlace text) (isBoundary_cutPlace text)).toList := by
  rw [ofString, dif_neg (Nat.not_le.2 h)]

theorem byteCount_of_exceeds (h : nameLimit < text.utf8ByteSize) :
    byteCount (ofString text).chars = cutPlace text := by
  rw [chars_of_exceeds h, byteCount_toList, utf8ByteSize_before]

theorem isLongestFit_of_fits (h : text.utf8ByteSize ≤ nameLimit) :
    (ofString text).IsLongestFit text := by
  have hchars := chars_of_fits h
  exact ⟨hchars ▸ List.prefix_rfl, fun front hfront _ => hchars ▸ hfront⟩

theorem isLongestFit_of_exceeds (h : nameLimit < text.utf8ByteSize) :
    (ofString text).IsLongestFit text := by
  have hfront : (ofString text).chars <+: text.toList := by
    rw [chars_of_exceeds h]
    exact before_prefix _
  refine ⟨hfront, fun front hother hfits => prefix_of_byteCount_le hother hfront ?_⟩
  rw [byteCount_of_exceeds h]
  exact le_of_lastBoundary? (lastBoundary?_nameLimit text)
    (isBoundary_iff.2 ⟨front, hother, rfl⟩) hfits

theorem isLongestFit_ofString (text : String) : (ofString text).IsLongestFit text := by
  rcases Nat.lt_or_ge nameLimit text.utf8ByteSize with h | h
  · exact isLongestFit_of_exceeds h
  · exact isLongestFit_of_fits h

theorem text_eq_iff (text : String) :
    (ofString text).text = text ↔ text.utf8ByteSize ≤ nameLimit := by
  constructor
  · intro h
    rw [← h, BoundedName.text, utf8ByteSize_ofList]
    exact (ofString text).bounded
  · intro h
    rw [BoundedName.text, chars_of_fits h, String.ofList_toList]

/-- A front that fits but for which there is no room is followed by a character. -/
theorem IsLongestFit.next_exceeds (h : name.IsLongestFit text)
    (hlong : nameLimit < text.utf8ByteSize) :
    ∃ c, name.chars ++ [c] <+: text.toList ∧ nameLimit < byteCount name.chars + c.utf8Size := by
  obtain ⟨rest, htext⟩ := h.front
  cases rest with
  | nil =>
      rw [List.append_nil] at htext
      have hbounded := name.bounded
      rw [htext, byteCount_toList] at hbounded
      omega
  | cons c rest =>
      have hmore : name.chars ++ [c] <+: text.toList :=
        ⟨rest, by rw [List.append_assoc, List.singleton_append, htext]⟩
      refine ⟨c, hmore, Nat.lt_of_not_le fun hfits => ?_⟩
      have hcount : byteCount (name.chars ++ [c]) = byteCount name.chars + c.utf8Size := by
        rw [byteCount_append, byteCount, byteCount, Nat.add_zero]
      have hlength := (h.longest _ hmore (hcount ▸ hfits)).length_le
      rw [List.length_append, List.length_singleton] at hlength
      omega

theorem isCutFrom_ofString (h : nameLimit < text.utf8ByteSize) :
    (ofString text).IsCutFrom text := by
  obtain ⟨c, hmore, hexceeds⟩ := (isLongestFit_ofString text).next_exceeds h
  have hfour := c.utf8Size_le_four
  have hbounded := (ofString text).bounded
  rw [← length_bytes] at hexceeds hbounded
  rw [nameLimit] at hexceeds hbounded
  refine ⟨⟨cutPlace text, lastBoundary?_nameLimit text, ?_⟩, by omega, hbounded,
    c, hmore, hexceeds⟩
  rw [bytes, BoundedName.text, chars_of_exceeds h, String.ofList_toList]
  exact bytes_before _

theorem ofString_text (name : BoundedName) : ofString name.text = name := by
  have hfits : name.text.utf8ByteSize ≤ nameLimit := by
    rw [BoundedName.text, utf8ByteSize_ofList]
    exact name.bounded
  refine (isLongestFit_of_fits hfits).eq ⟨?_, fun front hfront _ => ?_⟩
  · rw [BoundedName.text, String.toList_ofList]
  · rwa [BoundedName.text, String.toList_ofList] at hfront

/-- A text is cut to its longest front that fits, and is left whole only where it fits. -/
theorem cuts_to_longest_fit (text : String) :
    (∀ name : BoundedName, name.IsLongestFit text ↔ name = ofString text) ∧
      ((ofString text).text = text ↔ text.utf8ByteSize ≤ 254) ∧
      (254 < text.utf8ByteSize → (ofString text).IsCutFrom text) ∧
      (∃ stop, lastBoundary? text nameLimit = some stop) ∧
      ofString (ofString text).text = ofString text := by
  refine ⟨fun name => ⟨fun h => h.eq (isLongestFit_ofString text), ?_⟩, text_eq_iff text,
    isCutFrom_ofString, ⟨_, lastBoundary?_nameLimit text⟩, ofString_text _⟩
  rintro rfl
  exact isLongestFit_ofString text

/-- A character of two bytes across the limit. -/
def straddling : String :=
  String.ofList (List.replicate 253 'a' ++ ['é', 't', 'a', 'i', 'l'])

theorem cuts_straddling : 254 < straddling.utf8ByteSize ∧
    (ofString straddling).IsCutFrom straddling := by
  have hlong : 254 < straddling.utf8ByteSize := by
    unfold straddling
    rw [utf8ByteSize_ofList, byteCount_append, byteCount_replicate]
    decide
  exact ⟨hlong, (cuts_to_longest_fit straddling).2.2.1 hlong⟩

end BoundedName

end Rendezvous
