import Rendezvous.Proofs.ReadBack
import Rendezvous.ServerRecord

/-!
# Server records as texts

A GUID prefix is read back from its text. Main statement: so is a server record from the
JSON text that is written for it.
-/

namespace Rendezvous

open Text

namespace Text

theorem splitOn_joinWith {sep : Char} {parts : List (List Char)} (hne : parts ≠ [])
    (hparts : ∀ part ∈ parts, sep ∉ part) : splitOn sep (joinWith sep parts) = parts := by
  induction parts with
  | nil => exact absurd rfl hne
  | cons part parts ih =>
      have hpart := hparts part List.mem_cons_self
      cases parts with
      | nil => exact splitOn_of_not_mem hpart
      | cons next parts =>
          have hrest := ih (List.cons_ne_nil _ _) fun p hp => hparts p (List.mem_cons_of_mem _ hp)
          rw [joinWith, splitOn_append_sep hpart, hrest]
          exact List.cons_ne_nil _ _

theorem dropWhile_of_not_blank {text : List Char} (h : ∀ c ∈ text, isBlank c = false) :
    text.dropWhile isBlank = text := by
  cases text with
  | nil => rfl
  | cons c text => rw [List.dropWhile_cons, h c List.mem_cons_self]; rfl

theorem trim_of_not_blank {text : List Char} (h : ∀ c ∈ text, isBlank c = false) :
    trim text = text := by
  have hreverse : ∀ c ∈ text.reverse, isBlank c = false :=
    fun c hc => h c (List.mem_reverse.1 hc)
  rw [trim, dropWhile_of_not_blank h, trimEnd, dropWhile_of_not_blank hreverse,
    List.reverse_reverse]

/-- Whether a character has a meaning in a prefix besides being a digit. -/
theorem digitChar_plain {n : Nat} (hn : n < 16) :
    digitChar n ≠ '.' ∧ digitChar n ≠ '+' ∧ isBlank (digitChar n) = false := by
  revert n
  decide

theorem mem_encodeByte {c : Char} {b : UInt8} (hc : c ∈ Hex.encodeByte b) :
    ∃ n < 16, c = digitChar n := by
  have hb := b.toNat_lt
  simp only [Hex.encodeByte, List.mem_cons, List.not_mem_nil, or_false] at hc
  rcases hc with rfl | rfl
  · exact ⟨b.toNat / 16, by omega, rfl⟩
  · exact ⟨b.toNat % 16, by omega, rfl⟩

theorem mem_joinWith {sep c : Char} {parts : List (List Char)} (hc : c ∈ joinWith sep parts) :
    c = sep ∨ ∃ part ∈ parts, c ∈ part := by
  induction parts with
  | nil => cases hc
  | cons part parts ih =>
      cases parts with
      | nil => exact .inr ⟨part, List.mem_cons_self, hc⟩
      | cons next parts =>
          rw [joinWith] at hc
          · simp only [List.mem_append, List.mem_cons] at hc
            rcases hc with hc | rfl | hc
            · exact .inr ⟨part, List.mem_cons_self, hc⟩
            · exact .inl rfl
            · rcases ih hc with hsep | ⟨part', hpart', hc'⟩
              · exact .inl hsep
              · exact .inr ⟨part', List.mem_cons_of_mem _ hpart', hc'⟩
          · exact List.cons_ne_nil _ _

end Text

namespace GuidPrefix

theorem readPart?_encodeByte (b : UInt8) : readPart? (Hex.encodeByte b) = some b := by
  have hb := b.toNat_lt
  have hplus : digitChar (b.toNat / 16) ≠ '+' := (digitChar_plain (by omega)).2.1
  rw [Hex.encodeByte, readPart?, if_neg hplus, Hex.decodeByte?_encodeByte]

theorem mapM_readPart? (bytes : List UInt8) :
    (bytes.map Hex.encodeByte).mapM readPart? = some bytes := by
  induction bytes with
  | nil => rfl
  | cons b bytes ih => simp [readPart?_encodeByte, ih]

theorem ofBytes?_toList (p : GuidPrefix) : ofBytes? p.bytes.toList = some p := by
  obtain ⟨⟨bytes, hsize⟩⟩ := p
  simp [ofBytes?, hsize]

theorem parse_text (p : GuidPrefix) : parse p.text = .ok p := by
  have hparts : ∀ part ∈ p.bytes.toList.map Hex.encodeByte, '.' ∉ part := by
    intro part hpart hc
    obtain ⟨b, _, rfl⟩ := List.mem_map.1 hpart
    obtain ⟨n, hn, hdigit⟩ := mem_encodeByte hc
    exact (digitChar_plain hn).1 hdigit.symm
  have hblank : ∀ c ∈ p.chars, isBlank c = false := by
    intro c hc
    rcases mem_joinWith hc with rfl | ⟨part, hpart, hc⟩
    · decide
    · obtain ⟨b, _, rfl⟩ := List.mem_map.1 hpart
      obtain ⟨n, hn, rfl⟩ := mem_encodeByte hc
      exact (digitChar_plain hn).2.2
  have hne : p.bytes.toList.map Hex.encodeByte ≠ [] := by
    intro hnil
    have hlength := congrArg List.length hnil
    simp at hlength
  have hsplit : splitOn '.' p.chars = p.bytes.toList.map Hex.encodeByte :=
    splitOn_joinWith hne hparts
  have hread : ofChars? p.chars = some p := by
    rw [ofChars?, trim_of_not_blank hblank, hsplit, mapM_readPart?]
    exact ofBytes?_toList p
  rw [parse, text, String.toList_ofList, hread]

end GuidPrefix

namespace ServerRecord

/-- A record is read back from the text that is written for it. -/
theorem ofString_toJson (r : ServerRecord) : schema.ofString r.toJson.pretty = .ok r := by
  have hprefix := Json.reads_parsed "a string" r.guidPrefix.parse_text
  refine @Json.Schema.ofString_pretty _ _ schema
    ⟨some r.domain, some r.pid, some r.guidPrefix, some r.startedAt⟩ _ r ?_
    (List.cons_ne_nil _ _) rfl
  refine .cons rfl rfl (Json.reads_field _ _ _ (Json.reads_uint32 r.domain) _) ?_
  refine .cons rfl rfl (Json.reads_field _ _ _ (Json.reads_uint32 r.pid) _) ?_
  refine .cons rfl rfl (Json.reads_field _ _ _ hprefix _) ?_
  refine .cons rfl rfl (Json.reads_field _ _ _ (Json.reads_uint64 r.startedAt) _) ?_
  exact .nil _

end ServerRecord

end Rendezvous
