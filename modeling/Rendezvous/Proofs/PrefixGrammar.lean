import Mathlib.Data.List.Forall2
import Mathlib.Data.List.TakeWhile
import Mathlib.Data.Set.List
import Rendezvous.Proofs.RecordText

/-!
# The grammar of GUID prefixes

A text spells a prefix when, blank characters at both ends aside, it is twelve parts with
points between, and each part spells the byte at its place. Main statement: reading
accepts what spells a prefix and nothing else, a refusal shows the text as it was given,
and only what printing writes is read and printed as it was.
-/

namespace Rendezvous

open Text

namespace Text

variable {before core after : List Char}

/-- Trimming takes what is blank at both ends, and no more. -/
theorem trim_append (hbefore : ∀ c ∈ before, isBlank c = true)
    (hafter : ∀ c ∈ after, isBlank c = true) (hcore : ∀ c ∈ core, isBlank c = false) :
    trim (before ++ core ++ after) = core := by
  have hlast : trimEnd (core ++ after) = core := by
    have hreverse : ∀ c ∈ core.reverse, isBlank c = false :=
      fun c hc => hcore c (List.mem_reverse.1 hc)
    rw [trimEnd, List.reverse_append, List.dropWhile_append_of_pos
      fun c hc => hafter c (List.mem_reverse.1 hc), dropWhile_of_not_blank hreverse,
      List.reverse_reverse]
  rw [trim, List.append_assoc, List.dropWhile_append_of_pos hbefore]
  cases core with
  | nil =>
      rw [List.nil_append, List.dropWhile_eq_nil_iff.2 hafter]
      rfl
  | cons c core =>
      rw [List.cons_append, List.dropWhile_cons, hcore c List.mem_cons_self]
      exact hlast

theorem exists_append_trim (text : List Char) :
    ∃ before after, text = before ++ trim text ++ after ∧
      (∀ c ∈ before, isBlank c = true) ∧ ∀ c ∈ after, isBlank c = true := by
  have hblank : ∀ row : List Char, ∀ c ∈ row.takeWhile isBlank, isBlank c = true :=
    fun row => List.all_eq_true.1 (List.all_takeWhile)
  have hend : ∀ row : List Char,
      row = trimEnd row ++ (row.reverse.takeWhile isBlank).reverse := by
    intro row
    rw [trimEnd, ← List.reverse_append, List.takeWhile_append_dropWhile, List.reverse_reverse]
  refine ⟨text.takeWhile isBlank, ((text.dropWhile isBlank).reverse.takeWhile isBlank).reverse,
    ?_, hblank text, fun c hc => hblank _ c (List.mem_reverse.1 hc)⟩
  rw [trim, List.append_assoc, ← hend, List.takeWhile_append_dropWhile]

/-- A row is read when each of its entries is. -/
theorem mapM_eq_some_iff {α β : Type} {read : α → Option β} {row : List α} {values : List β} :
    row.mapM read = some values ↔ List.Forall₂ (fun a b => read a = some b) row values := by
  induction row generalizing values with
  | nil =>
      rw [List.mapM_nil, List.forall₂_nil_left_iff]
      exact Option.some_inj.trans eq_comm
  | cons a row ih =>
      rw [List.mapM_cons, List.forall₂_cons_left_iff]
      simp only [Option.bind_eq_bind, Option.bind_eq_some_iff, ih]
      constructor
      · rintro ⟨b, hb, values', hvalues, heq⟩
        exact ⟨b, values', hb, hvalues, (Option.some.inj heq).symm⟩
      · rintro ⟨b, values', hb, hvalues, rfl⟩
        exact ⟨b, hb, values', hvalues, rfl⟩

theorem length_joinWith (sep : Char) {k : Nat} {parts : List (List Char)} (hne : parts ≠ [])
    (hparts : ∀ part ∈ parts, part.length = k) :
    (joinWith sep parts).length + 1 = parts.length * (k + 1) := by
  induction parts with
  | nil => exact absurd rfl hne
  | cons part parts ih =>
      have hpart := hparts part List.mem_cons_self
      cases parts with
      | nil => rw [joinWith, hpart, List.length_singleton, Nat.one_mul]
      | cons next parts =>
          have hrest := ih (List.cons_ne_nil _ _) fun p hp => hparts p (List.mem_cons_of_mem _ hp)
          have hone : (part :: next :: parts).length * (k + 1) =
              (next :: parts).length * (k + 1) + (k + 1) := Nat.succ_mul _ _
          rw [joinWith, List.length_append, List.length_cons, hrest, hpart, hone]
          · omega
          · exact List.cons_ne_nil _ _

namespace Hex

theorem mem_lowerHex_iff {c : Char} : c ∈ lowerHex ↔ ∃ n < 16, digitChar n = c := by
  have hdigits : lowerHex = (List.range 16).map digitChar := by decide
  simp only [hdigits, List.mem_map, List.mem_range]

/-- Bytes are printed as the pairs of lower-case digits. -/
theorem exists_encodeByte_iff {part : List Char} :
    (∃ b, encodeByte b = part) ↔ ∃ h ∈ lowerHex, ∃ l ∈ lowerHex, part = [h, l] := by
  constructor
  · rintro ⟨b, rfl⟩
    have hb := b.toNat_lt
    exact ⟨_, mem_lowerHex_iff.2 ⟨b.toNat / 16, by omega, rfl⟩, _,
      mem_lowerHex_iff.2 ⟨b.toNat % 16, by omega, rfl⟩, rfl⟩
  · rintro ⟨h, hh, l, hl, rfl⟩
    obtain ⟨n, hn, rfl⟩ := mem_lowerHex_iff.1 hh
    obtain ⟨m, hm, rfl⟩ := mem_lowerHex_iff.1 hl
    have hvalue : (UInt8.ofNat (16 * n + m)).toNat = 16 * n + m :=
      UInt8.toNat_ofNat_of_lt (by change 16 * n + m < 256; omega)
    refine ⟨.ofNat (16 * n + m), ?_⟩
    rw [encodeByte, hvalue, Nat.mul_add_div (by decide), Nat.div_eq_of_lt hm, Nat.add_zero,
      Nat.mul_add_mod, Nat.mod_eq_of_lt hm]

end Hex

end Text

namespace GuidPrefix

/-! ## Texts that are read -/

/-- What may stand for a byte: one digit, two digits, or one digit after a plus sign. -/
inductive SpellsByte : List Char → UInt8 → Prop
  | one {d : Char} {n : Nat} : IsHexDigit d n → SpellsByte [d] (.ofNat n)
  | two {h l : Char} {n m : Nat} :
      IsHexDigit h n → IsHexDigit l m → SpellsByte [h, l] (.ofNat (16 * n + m))
  | signed {d : Char} {n : Nat} : IsHexDigit d n → SpellsByte ['+', d] (.ofNat n)

/-- Twelve parts with points between, which spell the bytes in their order; blank
characters may stand before the first part and after the last. -/
def Spells (text : String) (p : GuidPrefix) : Prop :=
  ∃ before parts after, text.toList = before ++ joinWith '.' parts ++ after ∧
    (∀ c ∈ before, isBlank c = true) ∧ (∀ c ∈ after, isBlank c = true) ∧
    List.Forall₂ SpellsByte parts p.bytes.toList

variable {d : Char} {n : Nat}

/-- A digit is none of the characters with a meaning of their own. -/
theorem plain_of_isHexDigit (hd : IsHexDigit d n) :
    d ≠ '.' ∧ d ≠ '+' ∧ isBlank d = false := by
  have hdigits : (lowerHex ++ upperHex).all (fun c => c != '.' && c != '+' && !isBlank c) = true := by
    decide
  have hmem : d ∈ lowerHex ++ upperHex :=
    List.mem_append.2 (hd.imp List.mem_of_getElem? List.mem_of_getElem?)
  simpa [and_assoc] using List.all_eq_true.1 hdigits d hmem

theorem readPart?_eq_some_iff {part : List Char} {b : UInt8} :
    readPart? part = some b ↔ SpellsByte part b := by
  constructor
  · intro h
    match part, h with
    | [d], h =>
        obtain ⟨n, hn, rfl⟩ := Option.map_eq_some_iff.1 h
        exact .one (digitValue?_eq_some_iff.1 hn)
    | [high, low], h =>
        rw [readPart?] at h
        split at h
        case isTrue hplus =>
          obtain ⟨n, hn, rfl⟩ := Option.map_eq_some_iff.1 h
          exact hplus ▸ .signed (digitValue?_eq_some_iff.1 hn)
        case isFalse =>
          obtain ⟨n, hn, h⟩ := Option.bind_eq_some_iff.1 h
          obtain ⟨m, hm, h⟩ := Option.bind_eq_some_iff.1 h
          cases h
          exact .two (digitValue?_eq_some_iff.1 hn) (digitValue?_eq_some_iff.1 hm)
  · intro h
    cases h with
    | one hd => rw [readPart?, digitValue?_eq_some_iff.2 hd, Option.map_some]
    | two hh hl =>
        rw [readPart?, if_neg (plain_of_isHexDigit hh).2.1, Hex.decodeByte?,
          digitValue?_eq_some_iff.2 hh, digitValue?_eq_some_iff.2 hl]
        rfl
    | signed hd => rw [readPart?, if_pos rfl, digitValue?_eq_some_iff.2 hd, Option.map_some]

theorem SpellsByte.plain {part : List Char} {b : UInt8} (h : SpellsByte part b) :
    ∀ c ∈ part, c ≠ '.' ∧ isBlank c = false := by
  have hdigit : ∀ {d n}, IsHexDigit d n → d ≠ '.' ∧ isBlank d = false :=
    fun hd => ⟨(plain_of_isHexDigit hd).1, (plain_of_isHexDigit hd).2.2⟩
  cases h with
  | one hd => exact List.forall_mem_singleton.2 (hdigit hd)
  | two hh hl => exact List.forall_mem_cons.2 ⟨hdigit hh, List.forall_mem_singleton.2 (hdigit hl)⟩
  | signed hd =>
      exact List.forall_mem_cons.2 ⟨by decide, List.forall_mem_singleton.2 (hdigit hd)⟩

theorem ofBytes?_eq_some_iff {bytes : List UInt8} {p : GuidPrefix} :
    ofBytes? bytes = some p ↔ bytes = p.bytes.toList := by
  constructor
  · intro h
    rw [ofBytes?] at h
    split at h
    · cases h
      simp
    · cases h
  · rintro rfl
    exact ofBytes?_toList p

theorem ofChars?_eq_some_iff {text : List Char} {p : GuidPrefix} :
    ofChars? text = some p ↔
      List.Forall₂ SpellsByte (splitOn '.' (trim text)) p.bytes.toList := by
  simp only [ofChars?, Option.bind_eq_bind, Option.bind_eq_some_iff, ofBytes?_eq_some_iff,
    mapM_eq_some_iff, readPart?_eq_some_iff]
  constructor
  · rintro ⟨bytes, hparts, rfl⟩
    exact hparts
  · exact fun hparts => ⟨_, hparts, rfl⟩

theorem ofChars?_eq_some_iff_spells {text : String} {p : GuidPrefix} :
    ofChars? text.toList = some p ↔ Spells text p := by
  rw [ofChars?_eq_some_iff]
  constructor
  · intro hparts
    obtain ⟨before, after, htext, hbefore, hafter⟩ := exists_append_trim text.toList
    exact ⟨before, _, after, by rw [joinWith_splitOn]; exact htext, hbefore, hafter, hparts⟩
  · rintro ⟨before, parts, after, htext, hbefore, hafter, hparts⟩
    have hplain : ∀ part ∈ parts, ∀ c ∈ part, c ≠ '.' ∧ isBlank c = false :=
      ((List.forall₂_and_left _ _).1 (hparts.imp fun _ _ h => ⟨h.plain, h⟩)).1
    have hne : parts ≠ [] := by
      rintro rfl
      simpa using hparts.length_eq
    have hblank : ∀ c ∈ joinWith '.' parts, isBlank c = false := by
      intro c hc
      rcases mem_joinWith hc with rfl | ⟨part, hpart, hc⟩
      · decide
      · exact (hplain part hpart c hc).2
    rw [htext, trim_append hbefore hafter hblank,
      splitOn_joinWith hne fun part hpart hsep => (hplain part hpart _ hsep).1 rfl]
    exact hparts

theorem parse_eq_ok_iff {text : String} {p : GuidPrefix} :
    parse text = .ok p ↔ Spells text p := by
  rw [← ofChars?_eq_some_iff_spells, parse]
  cases ofChars? text.toList <;> simp

theorem parse_eq_error_iff {text : String} {message : String} :
    parse text = .error message ↔
      (∀ p, ¬Spells text p) ∧ message = invalidMessage text := by
  simp only [← ofChars?_eq_some_iff_spells, parse]
  cases ofChars? text.toList with
  | some p => simp
  | none => simp [eq_comm]

/-! ## Texts that are printed -/

/-- Thirty-five characters: twelve pairs of lower-case digits, with points between. -/
structure IsPrinted (text : String) : Prop where
  length_eq : text.length = 35
  pairs : ∃ parts, text.toList = joinWith '.' parts ∧ parts.length = 12 ∧
    ∀ part ∈ parts, ∃ h ∈ lowerHex, ∃ l ∈ lowerHex, part = [h, l]

theorem isPrinted_text (p : GuidPrefix) : IsPrinted p.text := by
  have hparts : (p.bytes.toList.map Hex.encodeByte).length = 12 := by simp
  have hne : p.bytes.toList.map Hex.encodeByte ≠ [] := List.ne_nil_of_length_pos (by omega)
  have hlength : ∀ part ∈ p.bytes.toList.map Hex.encodeByte, part.length = 2 := by
    intro part hpart
    obtain ⟨b, _, rfl⟩ := List.mem_map.1 hpart
    rfl
  refine ⟨?_, _, String.toList_ofList, hparts, ?_⟩
  · have htext := length_joinWith '.' hne hlength
    rw [hparts] at htext
    rw [text, String.length_ofList]
    exact Nat.succ.inj htext
  · intro part hpart
    obtain ⟨b, _, rfl⟩ := List.mem_map.1 hpart
    exact Hex.exists_encodeByte_iff.1 ⟨b, rfl⟩

theorem exists_eq_text_iff {text : String} :
    (∃ p : GuidPrefix, text = p.text) ↔ IsPrinted text := by
  constructor
  · rintro ⟨p, rfl⟩
    exact isPrinted_text p
  · rintro ⟨_, parts, htext, hlength, hparts⟩
    have hrange : parts ∈ Set.range (List.map Hex.encodeByte) := by
      rw [Set.range_list_map]
      exact fun part hpart => Hex.exists_encodeByte_iff.2 (hparts part hpart)
    obtain ⟨bytes, rfl⟩ := hrange
    rw [List.length_map] at hlength
    refine ⟨⟨⟨bytes.toArray, by rw [List.size_toArray, hlength]⟩⟩, ?_⟩
    rw [GuidPrefix.text, chars, ← String.ofList_toList (s := text), htext]
    rfl

/-- Reading accepts exactly the grammar, a refusal shows the whole text, reading undoes
printing, and printing undoes reading on the printed texts only. -/
theorem parse_accepts_grammar (text : String) :
    (∀ p, parse text = .ok p ↔ Spells text p) ∧
      (∀ message, parse text = .error message ↔
        (∀ p, ¬Spells text p) ∧ message = "invalid GUID prefix '" ++ text ++ "'") ∧
      (∀ p : GuidPrefix, parse p.text = .ok p) ∧
      ((∃ p, parse text = .ok p ∧ p.text = text) ↔ IsPrinted text) ∧
      ((∃ p : GuidPrefix, text = p.text) ↔ IsPrinted text) := by
  refine ⟨fun p => parse_eq_ok_iff, fun message => parse_eq_error_iff, parse_text, ?_,
    exists_eq_text_iff⟩
  rw [← exists_eq_text_iff]
  constructor
  · rintro ⟨p, _, htext⟩
    exact ⟨p, htext.symm⟩
  · rintro ⟨p, rfl⟩
    exact ⟨p, parse_text p, rfl⟩

end GuidPrefix

end Rendezvous
