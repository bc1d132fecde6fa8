import Mathlib.Data.Nat.Digits.Lemmas
import Rendezvous.Address.Reader
import Rendezvous.Proofs.RecordText

/-!
# Addresses read back from their texts

A numeral is read back digit by digit, up to the first character that is none, and so are
four decimal numbers and a row of groups. The longest run of zero groups is what the
reader fills in for `::`. Main statement: an address of either family is read back from
its text.
-/

namespace Rendezvous

open Text

namespace Text

/-! ## Numerals by their digits -/

/-- The digits that a number is written with, the most significant one first. -/
def digits (base n : Nat) : List Nat := if n = 0 then [0] else (Nat.digits base n).reverse

variable {base : Nat}

theorem digits_of_lt {n : Nat} (hn : n < base) : digits base n = [n] := by
  by_cases hzero : n = 0
  · rw [digits, if_pos hzero, hzero]
  · rw [digits, if_neg hzero, Nat.digits_of_lt base n hzero hn, List.reverse_singleton]

theorem digits_of_le {n : Nat} (hbase : 1 < base) (hn : base ≤ n) :
    digits base n = digits base (n / base) ++ [n % base] := by
  have hquotient : n / base ≠ 0 := (Nat.div_pos hn (by omega)).ne'
  rw [digits, digits, if_neg (by omega), if_neg hquotient, Nat.digits_def' hbase (by omega),
    List.reverse_cons]

theorem numeral_eq_map_digits (hbase : 1 < base) (n : Nat) :
    numeral base n = (digits base n).map digitChar := by
  induction n using Nat.strongRecOn with
  | ind n ih =>
      by_cases hn : n < base
      · rw [numeral_of_lt hn, digits_of_lt hn, List.map_singleton]
      · have hless : n / base < n := Nat.div_lt_self (by omega) hbase
        rw [numeral_of_le hbase (by omega), digits_of_le hbase (by omega), ih _ hless,
          List.map_append, List.map_singleton]

theorem lt_of_mem_digits {n d : Nat} (hbase : 1 < base) (hd : d ∈ digits base n) : d < base := by
  by_cases hzero : n = 0
  · rw [digits, if_pos hzero, List.mem_singleton] at hd
    omega
  · rw [digits, if_neg hzero, List.mem_reverse] at hd
    exact Nat.digits_lt_base hbase hd

theorem one_le_length_digits (n : Nat) : 1 ≤ (digits base n).length := by
  by_cases hzero : n = 0
  · simp [digits, hzero]
  · rw [digits, if_neg hzero, List.length_reverse]
    exact List.length_pos_iff.2 (Nat.digits_ne_nil_iff_ne_zero.2 hzero)

theorem length_digits_le {n limit : Nat} (hbase : 1 < base) (hlimit : 1 ≤ limit)
    (hn : n < base ^ limit) : (digits base n).length ≤ limit := by
  by_cases hzero : n = 0
  · rwa [digits, if_pos hzero, List.length_singleton]
  · rw [digits, if_neg hzero, List.length_reverse]
    exact (Nat.digits_length_le_iff hbase n).2 hn

/-- Only zero is written with a zero in front, and then with no other digit. -/
theorem leads_digits (n : Nat) :
    (digits base n).length = 1 ∨ (digits base n).head? ≠ some 0 := by
  by_cases hzero : n = 0
  · exact .inl (by simp [digits, hzero])
  · have hlast := Nat.getLast_digit_ne_zero base hzero
    rw [digits, if_neg hzero, List.head?_reverse, List.getLast?_eq_some_getLast
      (Nat.digits_ne_nil_iff_ne_zero.2 hzero)]
    exact .inr fun h => hlast (Option.some.inj h)

end Text

namespace Address

theorem ofDigits_digits (base n : Nat) : ofDigits base (digits base n) = n := by
  have hfold : ∀ row : List Nat, ofDigits base row.reverse = Nat.ofDigits base row := by
    intro row
    rw [ofDigits, List.foldl_reverse, Nat.ofDigits_eq_foldr]
    induction row with
    | nil => rfl
    | cons d row ih => rw [List.foldr_cons, List.foldr_cons, ih, Nat.add_comm, Nat.cast_id]
  by_cases hzero : n = 0
  · simp [digits, hzero, ofDigits]
  · rw [digits, if_neg hzero, hfold, Nat.ofDigits_digits]

def EndsDigits (base : Nat) (rest : List Char) : Prop :=
  ∀ c ∈ rest.head?, digitValue? base c = none

theorem endsDigits_nil (base : Nat) : EndsDigits base [] := nofun

theorem endsDigits_cons {base : Nat} {c : Char} (hc : digitValue? base c = none)
    (rest : List Char) : EndsDigits base (c :: rest) := by
  intro d hd
  cases hd
  exact hc

section Numerals

variable {base : Nat} (hbase : 1 < base)
  (hdigit : ∀ d < base, digitValue? base (digitChar d) = some d)
include hbase hdigit

theorem takeWhile_numeral (n : Nat) {rest : List Char} (hrest : EndsDigits base rest) :
    ((numeral base n ++ rest).map (digitValue? base)).takeWhile Option.isSome =
      (digits base n).map some := by
  have hvalues : (numeral base n).map (digitValue? base) = (digits base n).map some := by
    rw [numeral_eq_map_digits hbase, List.map_map]
    exact List.map_congr_left fun d hd => hdigit d (lt_of_mem_digits hbase hd)
  have hstop : (rest.map (digitValue? base)).takeWhile Option.isSome = [] := by
    cases rest with
    | nil => rfl
    | cons c rest => simp [hrest c rfl]
  rw [List.map_append, hvalues, List.takeWhile_append_of_pos, hstop, List.append_nil]
  intro value hvalue
  obtain ⟨d, _, rfl⟩ := List.mem_map.1 hvalue
  rfl

theorem readDigits?_numeral {n limit : Nat} (hlimit : 1 ≤ limit) (hn : n < base ^ limit)
    {rest : List Char} (hrest : EndsDigits base rest) :
    readDigits? base limit (numeral base n ++ rest) = some (digits base n, rest) := by
  have hlength : (numeral base n).length = (digits base n).length := by
    rw [numeral_eq_map_digits hbase, List.length_map]
  simp only [readDigits?, takeWhile_numeral hbase hdigit n hrest, List.length_map]
  rw [if_pos ⟨one_le_length_digits n, length_digits_le hbase hlimit hn⟩, ← hlength,
    List.drop_left]
  simp

end Numerals

/-! ## Four decimal numbers -/

theorem readOctet?_decimal (octet : UInt8) {rest : List Char} (hrest : EndsDigits 10 rest) :
    readOctet? (decimal octet.toNat ++ rest) = some (octet, rest) := by
  have hsmall : octet.toNat < 256 := octet.toNat_lt
  have hread := readDigits?_numeral (by decide) (fun d => digitValue?_digitChar_ten)
    (by decide : 1 ≤ 3) (by omega : octet.toNat < 10 ^ 3) hrest
  rw [readOctet?, decimal, hread]
  simp only [Option.bind_eq_bind, Option.bind_some, ofDigits_digits]
  rw [if_pos ⟨hsmall, leads_digits _⟩, UInt8.ofNat_toNat]

theorem endsDigits_point (rest : List Char) : EndsDigits 10 ('.' :: rest) :=
  endsDigits_cons (by decide) rest

theorem readV4?_v4Chars (octets : Vector UInt8 4) : readV4? (v4Chars octets.toList) =
    some (octets, []) := by
  obtain ⟨⟨bytes⟩, hsize⟩ := octets
  match bytes, hsize with
  | [a, b, c, d], _ =>
      have hchars : v4Chars [a, b, c, d] = decimal a.toNat ++ ('.' :: (decimal b.toNat ++
          ('.' :: (decimal c.toNat ++ ('.' :: (decimal d.toNat ++ [])))))) := by
        simp [v4Chars, joinWith]
      show readV4? (v4Chars [a, b, c, d]) = some (#v[a, b, c, d], [])
      simp only [hchars, readV4?, readOctet?_decimal _ (endsDigits_point _),
        readOctet?_decimal d (endsDigits_nil 10), expect?, Option.bind_eq_bind, Option.bind_some,
        if_true]

/-! ## Groups -/

def moreGroups (groups : List Nat) : List Char := groups.flatMap fun g => ':' :: numeral 16 g

theorem groupChars_cons (g : Nat) (groups : List Nat) :
    groupChars (g :: groups) = numeral 16 g ++ moreGroups groups := by
  induction groups generalizing g with
  | nil => simp [groupChars, joinWith, moreGroups]
  | cons next groups ih =>
      have hmore : groupChars (g :: next :: groups) =
          numeral 16 g ++ ':' :: groupChars (next :: groups) := rfl
      rw [hmore, ih, moreGroups, moreGroups, List.flatMap_cons, List.cons_append]

inductive EndsGroup : List Char → Prop
  | nil : EndsGroup []
  | colon (rest : List Char) : EndsGroup (':' :: rest)

theorem EndsGroup.endsDigits {rest : List Char} (h : EndsGroup rest) : EndsDigits 16 rest := by
  cases h with
  | nil => exact endsDigits_nil 16
  | colon rest => exact endsDigits_cons (by decide) rest

theorem endsGroup_moreGroups (groups : List Nat) {rest : List Char} (h : EndsGroup rest) :
    EndsGroup (moreGroups groups ++ rest) := by
  cases groups with
  | nil => exact h
  | cons g groups => exact .colon _

theorem readGroup?_numeral {g : Nat} (hg : g < 65536) {rest : List Char}
    (hrest : EndsDigits 16 rest) : readGroup? (numeral 16 g ++ rest) = some (g, rest) := by
  have hread := readDigits?_numeral (by decide) (fun d => digitValue?_digitChar)
    (by decide : 1 ≤ 4) hg hrest
  rw [readGroup?, hread]
  simp [ofDigits_digits]

theorem readDigits?_rest {base limit : Nat} {text rest : List Char} {row : List Nat}
    (h : readDigits? base limit text = some (row, rest)) :
    rest = text.dropWhile fun c => (digitValue? base c).isSome := by
  have hlength : ((text.map (digitValue? base)).takeWhile Option.isSome).length =
      (text.takeWhile fun c => (digitValue? base c).isSome).length := by
    rw [List.takeWhile_map, List.length_map]
    rfl
  have hdrop := @List.drop_left _ (text.takeWhile fun c => (digitValue? base c).isSome)
    (text.dropWhile fun c => (digitValue? base c).isSome)
  rw [List.takeWhile_append_dropWhile] at hdrop
  simp only [readDigits?, hlength, hdrop] at h
  split at h
  · cases h
    rfl
  · cases h

theorem readOctet?_rest {text rest : List Char} {octet : UInt8}
    (h : readOctet? text = some (octet, rest)) : rest = text.dropWhile isDecimalDigit := by
  rw [readOctet?, Option.bind_eq_bind, Option.bind_eq_some_iff] at h
  obtain ⟨⟨row, rest'⟩, hread, h⟩ := h
  simp only at h
  split at h
  · cases h
    exact readDigits?_rest hread
  · cases h

/-- Decimal numbers go on with a point where the digits of the first one end. -/
theorem readV4?_eq_none {text : List Char}
    (h : expect? '.' (text.dropWhile isDecimalDigit) = none) : readV4? text = none := by
  rw [readV4?]
  cases hread : readOctet? text with
  | none => rfl
  | some first =>
      obtain ⟨octet, rest⟩ := first
      rw [← readOctet?_rest hread] at h
      simp [h]

theorem expect?_point_dropWhile {word rest : List Char} (hword : '.' ∉ word)
    (hrest : EndsGroup rest) : expect? '.' ((word ++ rest).dropWhile isDecimalDigit) = none := by
  induction word with
  | nil =>
      cases hrest with
      | nil => rfl
      | colon rest => rfl
  | cons c word ih =>
      have hc : c ≠ '.' := fun h => hword (h ▸ List.mem_cons_self)
      rw [List.cons_append, List.dropWhile_cons]
      split
      · exact ih fun h => hword (List.mem_cons_of_mem _ h)
      · rw [expect?, if_neg hc]

theorem point_not_mem_numeral (g : Nat) : '.' ∉ numeral 16 g := by
  intro hmem
  rw [numeral_eq_map_digits (by decide)] at hmem
  obtain ⟨d, hd, hpoint⟩ := List.mem_map.1 hmem
  exact (digitChar_plain (lt_of_mem_digits (by decide) hd)).1 hpoint

theorem readV4?_numeral (g : Nat) {rest : List Char} (hrest : EndsGroup rest) :
    readV4? (numeral 16 g ++ rest) = none :=
  readV4?_eq_none (expect?_point_dropWhile (point_not_mem_numeral g) hrest)

/-- Whether no group follows: the text is at its end, or groups are left out here. -/
inductive Closes : List Char → Prop
  | nil : Closes []
  | gap (rest : List Char) : Closes (':' :: ':' :: rest)

theorem Closes.endsGroup {rest : List Char} (h : Closes rest) : EndsGroup rest := by
  cases h with
  | nil => exact .nil
  | gap rest => exact .colon _

theorem readGroups_of_closes (limit : Nat) (isFirst : Bool) {rest : List Char}
    (h : Closes rest) : readGroups limit isFirst rest = ⟨[], false, rest⟩ := by
  cases limit with
  | zero => rfl
  | succ limit =>
      cases h with
      | nil =>
          have hv4 : readV4? [] = none := readV4?_eq_none rfl
          have hgroup : readGroup? [] = none := rfl
          cases isFirst <;> simp [readGroups, expect?, hv4, hgroup]
      | gap rest =>
          have hv4 : ∀ text, readV4? (':' :: text) = none := fun text => readV4?_eq_none rfl
          have hgroup : ∀ text, readGroup? (':' :: text) = none := fun text => rfl
          cases isFirst <;> simp [readGroups, expect?, hv4, hgroup]

theorem readGroups_moreGroups {groups : List Nat} (hgroups : ∀ g ∈ groups, g < 65536)
    {limit : Nat} (hlimit : groups.length ≤ limit) {rest : List Char} (hrest : Closes rest) :
    readGroups limit false (moreGroups groups ++ rest) = ⟨groups, false, rest⟩ := by
  induction groups generalizing limit with
  | nil => exact readGroups_of_closes limit false hrest
  | cons g groups ih =>
      cases limit with
      | zero => simp at hlimit
      | succ limit =>
          have hends := endsGroup_moreGroups groups hrest.endsGroup
          have hmore := ih (fun g hg => hgroups g (List.mem_cons_of_mem _ hg))
            (by simpa using hlimit)
          have htext : moreGroups (g :: groups) ++ rest =
              ':' :: (numeral 16 g ++ (moreGroups groups ++ rest)) := by
            simp [moreGroups]
          rw [htext, readGroups]
          simp only [expect?, if_true, Bool.false_eq_true, if_false, readV4?_numeral g hends,
            ite_self, readGroup?_numeral (hgroups g List.mem_cons_self) hends.endsDigits, hmore]

theorem readGroups_groupChars {groups : List Nat} (hgroups : ∀ g ∈ groups, g < 65536)
    {limit : Nat} (hlimit : groups.length ≤ limit) {rest : List Char} (hrest : Closes rest) :
    readGroups limit true (groupChars groups ++ rest) = ⟨groups, false, rest⟩ := by
  cases groups with
  | nil => exact readGroups_of_closes limit true hrest
  | cons g groups =>
      cases limit with
      | zero => simp at hlimit
      | succ limit =>
          have hends := endsGroup_moreGroups groups hrest.endsGroup
          have hmore := readGroups_moreGroups
            (fun g hg => hgroups g (List.mem_cons_of_mem _ hg)) (by simpa using hlimit) hrest
          rw [groupChars_cons, List.append_assoc, readGroups]
          simp only [if_true, readV4?_numeral g hends, ite_self,
            readGroup?_numeral (hgroups g List.mem_cons_self) hends.endsDigits, hmore]

/-! ## Groups and bytes -/

theorem groups_lt (octets : List UInt8) : ∀ g ∈ groups octets, g < 65536 := by
  induction octets using groups.induct with
  | case1 high low rest ih =>
      intro g hg
      have hhigh := high.toNat_lt
      have hlow := low.toNat_lt
      rw [groups, List.mem_cons] at hg
      rcases hg with rfl | hg
      · omega
      · exact ih g hg
  | case2 octets hshort =>
      intro g hg
      rw [groups] at hg
      · cases hg
      · exact hshort

theorem length_groups (octets : List UInt8) : (groups octets).length = octets.length / 2 := by
  induction octets using groups.induct with
  | case1 high low rest ih =>
      rw [groups, List.length_cons, ih, List.length_cons, List.length_cons]
      omega
  | case2 octets hshort =>
      match octets with
      | [] => rfl
      | [_] => simp [groups]
      | high :: low :: rest => exact absurd rfl (hshort high low rest)

theorem octetsOfGroups_cons (high low : UInt8) (groups : List Nat) :
    octetsOfGroups ((256 * high.toNat + low.toNat) :: groups) =
      high :: low :: octetsOfGroups groups := by
  have hlow := low.toNat_lt
  have hquotient : (256 * high.toNat + low.toNat) / 256 = high.toNat := by omega
  have hremainder : (256 * high.toNat + low.toNat) % 256 = low.toNat := by omega
  simp [octetsOfGroups, hquotient, hremainder]

theorem octetsOfGroups_groups {octets : List UInt8} (heven : octets.length % 2 = 0) :
    octetsOfGroups (groups octets) = octets := by
  induction octets using groups.induct with
  | case1 high low rest ih =>
      have hrest : rest.length % 2 = 0 := by
        rw [List.length_cons, List.length_cons] at heven
        omega
      rw [groups, octetsOfGroups_cons, ih hrest]
  | case2 octets hshort =>
      match octets, heven with
      | [], _ => rfl
      | high :: low :: rest, _ => exact absurd rfl (hshort high low rest)

theorem ofGroups?_eq_some {groups : List Nat} {octets : Vector UInt8 16}
    (h : octetsOfGroups groups = octets.toList) : ofGroups? groups = some octets := by
  obtain ⟨⟨bytes⟩, hsize⟩ := octets
  have hbytes : octetsOfGroups groups = bytes := h
  subst hbytes
  have hlength : (octetsOfGroups groups).length = 16 := by simpa using hsize
  rw [ofGroups?, dif_pos hlength]

/-! ## The longest run of zeros -/

theorem take_leadingZeros (groups : List Nat) :
    groups.take (leadingZeros groups) = List.replicate (leadingZeros groups) 0 := by
  induction groups with
  | nil => rfl
  | cons g groups ih =>
      by_cases hg : g = 0
      · subst hg
        have hmore : leadingZeros (0 :: groups) = leadingZeros groups + 1 := by
          simp [leadingZeros]
        rw [hmore, List.take_succ_cons, List.replicate_succ, ih]
      · have hnone : leadingZeros (g :: groups) = 0 := by simp [leadingZeros, hg]
        rw [hnone, List.take_zero, List.replicate_zero]

theorem leadingZeros_le (groups : List Nat) : leadingZeros groups ≤ groups.length :=
  (List.takeWhile_sublist _).length_le

theorem longestZeroRun_run (groups : List Nat) : (longestZeroRun groups).2 = 0 ∨
    (longestZeroRun groups).2 = leadingZeros (groups.drop (longestZeroRun groups).1) := by
  refine List.foldlRecOn (motive := fun longest : Nat × Nat =>
    longest.2 = 0 ∨ longest.2 = leadingZeros (groups.drop longest.1)) _ _ (.inl rfl) ?_
  intro longest hlongest start _
  dsimp only
  split
  · exact .inr rfl
  · exact hlongest

/-- The groups with the run that the text leaves out filled in again. -/
theorem fill_longestZeroRun (groups : List Nat) :
    groups.take (longestZeroRun groups).1 ++ List.replicate (longestZeroRun groups).2 0 ++
      groups.drop ((longestZeroRun groups).1 + (longestZeroRun groups).2) = groups := by
  rcases longestZeroRun_run groups with hnone | hrun
  · rw [hnone, List.replicate_zero, List.append_nil, Nat.add_zero, List.take_append_drop]
  · rw [← List.drop_drop, List.append_assoc]
    conv_lhs => rw [hrun, ← take_leadingZeros, List.take_append_drop]
    exact List.take_append_drop _ _

theorem longestZeroRun_le (groups : List Nat) :
    (longestZeroRun groups).1 + (longestZeroRun groups).2 ≤ groups.length ∨
      (longestZeroRun groups).2 = 0 := by
  rcases longestZeroRun_run groups with hnone | hrun
  · exact .inr hnone
  · have hle := leadingZeros_le (groups.drop (longestZeroRun groups).1)
    rw [List.length_drop] at hle
    omega

/-! ## Reading addresses -/

theorem readV4?_groupChars (groups : List Nat) {rest : List Char} (hrest : EndsGroup rest) :
    readV4? (groupChars groups ++ rest) = none := by
  cases groups with
  | nil =>
      cases hrest with
      | nil => exact readV4?_eq_none rfl
      | colon rest => exact readV4?_eq_none rfl
  | cons g groups =>
      rw [groupChars_cons, List.append_assoc]
      exact readV4?_numeral g (endsGroup_moreGroups groups hrest)

theorem readV4?_compressedChars (groups : List Nat) :
    readV4? (compressedChars groups) = none := by
  simp only [compressedChars]
  split
  · rw [List.append_assoc]
    exact readV4?_groupChars _ (.colon _)
  · rw [← List.append_nil (groupChars groups)]
    exact readV4?_groupChars _ .nil

theorem readV6?_groupChars (octets : Vector UInt8 16) :
    readV6? (groupChars (groups octets.toList)) = some (octets, []) := by
  have hlength : (groups octets.toList).length = 8 := by
    rw [length_groups, Vector.length_toList]
  have hbytes : octetsOfGroups (groups octets.toList) = octets.toList :=
    octetsOfGroups_groups (by rw [Vector.length_toList])
  have hread := readGroups_groupChars (groups_lt octets.toList) hlength.le .nil
  rw [List.append_nil] at hread
  simp [readV6?, hread, hlength, ofGroups?_eq_some hbytes]

/-- Where groups are left out, zeros are filled in up to eight groups. -/
theorem readV6?_gap {front back : List Nat} {text : List Char} {endsInV4 : Bool}
    (hfront : ∀ g ∈ front, g < 65536) (hroom : front.length < 8)
    (hback : readGroups (7 - front.length) true text = ⟨back, endsInV4, []⟩)
    {octets : Vector UInt8 16} (hbytes : octetsOfGroups (front ++
      List.replicate (8 - front.length - back.length) 0 ++ back) = octets.toList) :
    readV6? (groupChars front ++ ':' :: ':' :: text) = some (octets, []) := by
  have hread := readGroups_groupChars hfront hroom.le (.gap text)
  have hvalue := ofGroups?_eq_some hbytes
  rw [List.append_assoc] at hvalue
  simp only [readV6?, hread, if_neg hroom.ne]
  simp [expect?, hback, hvalue]

theorem readV6?_compressedChars (octets : Vector UInt8 16) :
    readV6? (compressedChars (groups octets.toList)) = some (octets, []) := by
  have hsmall := groups_lt octets.toList
  have hlength : (groups octets.toList).length = 8 := by
    rw [length_groups, Vector.length_toList]
  have hfill := fill_longestZeroRun (groups octets.toList)
  have hwithin := longestZeroRun_le (groups octets.toList)
  cases hrun : longestZeroRun (groups octets.toList) with
  | mk start length =>
      rw [hrun] at hfill hwithin
      simp only [hlength] at hfill hwithin
      simp only [compressedChars, hrun]
      by_cases hlong : 2 ≤ length
      · -- The run is a part of the eight groups, so the reader has room for it.
        have hfront : ((groups octets.toList).take start).length = start := by
          rw [List.length_take, hlength]
          omega
        have hback : ((groups octets.toList).drop (start + length)).length =
            8 - (start + length) := by
          rw [List.length_drop, hlength]
        have hread : readGroups (7 - ((groups octets.toList).take start).length) true
            (groupChars ((groups octets.toList).drop (start + length))) =
              ⟨(groups octets.toList).drop (start + length), false, []⟩ := by
          rw [← List.append_nil (groupChars _)]
          exact readGroups_groupChars (fun g hg => hsmall g (List.mem_of_mem_drop hg)) (by omega)
            .nil
        have hgap : 8 - start - (8 - (start + length)) = length := by omega
        rw [if_pos hlong, List.append_assoc, List.cons_append, List.cons_append, List.nil_append]
        refine readV6?_gap (fun g hg => hsmall g (List.mem_of_mem_take hg)) (by omega) hread ?_
        rw [hfront, hback, hgap, hfill]
        exact octetsOfGroups_groups (by rw [Vector.length_toList])
      · rw [if_neg hlong]
        exact readV6?_groupChars octets

theorem readGroups_mapped (octets : Vector UInt8 4) :
    readGroups 7 true ('f' :: 'f' :: 'f' :: 'f' :: ':' :: v4Chars octets.toList) =
      ⟨0xffff :: groups octets.toList, true, []⟩ := by
  have hends : EndsGroup (':' :: v4Chars octets.toList) := .colon _
  have hword : ['f', 'f', 'f', 'f'] = numeral 16 0xffff := by decide
  have htext : 'f' :: 'f' :: 'f' :: 'f' :: ':' :: v4Chars octets.toList =
      numeral 16 0xffff ++ ':' :: v4Chars octets.toList := by rw [← hword]; rfl
  have hmore : readGroups 6 false (':' :: v4Chars octets.toList) =
      ⟨groups octets.toList, true, []⟩ := by
    simp [readGroups, expect?, readV4?_v4Chars]
  have hgroup := readGroup?_numeral (by decide : 0xffff < 65536) hends.endsDigits
  rw [htext, readGroups]
  simp only [if_true, readV4?_numeral _ hends, ite_self, hgroup, hmore]

theorem readV6?_mapped {octets : Vector UInt8 16} (h : isMapped octets.toList = true) :
    readV6? (':' :: ':' :: 'f' :: 'f' :: 'f' :: 'f' :: ':' :: v4Chars (octets.toList.drop 12)) =
      some (octets, []) := by
  have hlast : (octets.toList.drop 12).length = 4 := by
    rw [List.length_drop, Vector.length_toList]
  have hfirst : octets.toList.take 12 = List.replicate 10 0 ++ [0xff, 0xff] := by
    simpa [isMapped] using h
  have hread := readGroups_mapped ⟨(octets.toList.drop 12).toArray, by simp⟩
  have hgroups : (groups (octets.toList.drop 12)).length = 2 := by rw [length_groups, hlast]
  have hfront : ∀ g ∈ ([] : List Nat), g < 65536 := nofun
  refine readV6?_gap hfront (by decide) hread ?_
  have hbytes : octetsOfGroups (List.replicate 5 0 ++ 0xffff :: groups (octets.toList.drop 12)) =
      octets.toList.take 12 ++ octets.toList.drop 12 := by
    have hdrop : octetsOfGroups (groups (octets.toList.drop 12)) = octets.toList.drop 12 :=
      octetsOfGroups_groups (by rw [hlast])
    rw [hfirst]
    conv_rhs => rw [← hdrop]
    rfl
  simpa [hgroups] using hbytes

theorem ofChars?_chars (a : Address) : ofChars? a.chars = some a := by
  cases a with
  | v4 octets => simp [ofChars?, chars, readV4?_v4Chars]
  | v6 octets =>
      have hv6 : readV4? (Address.v6 octets).chars = none ∧
          readV6? (Address.v6 octets).chars = some (octets, []) := by
        by_cases hmapped : isMapped octets.toList = true
        · rw [chars, if_pos hmapped]
          exact ⟨readV4?_eq_none rfl, readV6?_mapped hmapped⟩
        · rw [chars, if_neg hmapped]
          exact ⟨readV4?_compressedChars _, readV6?_compressedChars octets⟩
      simp [ofChars?, hv6]

/-- An address is read back from its text. -/
theorem ofString?_text (a : Address) : ofString? a.text = some a := by
  rw [ofString?, text, String.toList_ofList, ofChars?_chars]

end Address

end Rendezvous
