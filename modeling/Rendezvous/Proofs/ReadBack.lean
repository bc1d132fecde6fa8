import Rendezvous.Json.Record
import Rendezvous.Json.Value

/-!
# Reading back what was written

Strings and numbers that were written as JSON read back as they were, whatever follows
them, and so does an object whose members a record has as its fields. Main statement: if
each member fills its field, the pretty text of an object reads as the record that the
draft becomes.
-/

namespace Rendezvous.Json

open Text

/-! ## Strings -/

theorem readHexEscape_digits {n : Nat} (hn : n < 0x20) (rest : List Char) :
    readHexEscape ('0' :: '0' :: digitChar (n / 16) :: digitChar (n % 16) :: rest) =
      .ok (n, rest) := by
  have hzero : digitValue? 16 '0' = some 0 := by decide
  have hhigh : digitValue? 16 (digitChar (n / 16)) = some (n / 16) :=
    digitValue?_digitChar (by omega)
  have hlow : digitValue? 16 (digitChar (n % 16)) = some (n % 16) :=
    digitValue?_digitChar (by omega)
  have hvalue : ((0 * 16 + 0) * 16 + n / 16) * 16 + n % 16 = n := by omega
  simp only [readHexEscape, hzero, hhigh, hlow, hvalue]

theorem readEscape_control {c : Char} (hc : c.toNat < 0x20) (rest : List Char) :
    readEscape ('u' :: '0' :: '0' :: digitChar (c.toNat / 16) :: digitChar (c.toNat % 16) ::
      rest) = .ok (c, rest) := by
  have htrailing : isTrailingSurrogate c.toNat = false := by
    simp only [isTrailingSurrogate, Bool.and_eq_false_iff, decide_eq_false_iff_not]
    omega
  have hleading : isLeadingSurrogate c.toNat = false := by
    simp only [isLeadingSurrogate, Bool.and_eq_false_iff, decide_eq_false_iff_not]
    omega
  simp [readEscape, readHexEscape_digits hc, bind, Except.bind, htrailing, hleading]

theorem readCharsAux_escapeChar (c : Char) (fuel : Nat) (acc rest : List Char) :
    readCharsAux (fuel + 1) acc (escapeChar c ++ rest) = readCharsAux fuel (c :: acc) rest := by
  unfold escapeChar
  split
  · rfl
  · rfl
  · rfl
  · rfl
  · rfl
  · rfl
  · rfl
  · rename_i hquote hbackslash _ _ _ _ _
    by_cases hc : c.toNat < 0x20
    · rw [if_pos hc]
      simp only [List.cons_append, List.nil_append, readCharsAux]
      rw [if_neg (by decide), if_pos trivial, readEscape_control hc]
      rfl
    · rw [if_neg hc]
      simp only [List.cons_append, List.nil_append, readCharsAux]
      rw [if_neg hquote, if_neg hbackslash, if_neg hc]

theorem escapeChar_ne_nil (c : Char) : escapeChar c ≠ [] := by
  unfold escapeChar
  split
  · simp
  · simp
  · simp
  · simp
  · simp
  · simp
  · simp
  · split <;> simp

theorem readCharsAux_escaped (chars : List Char) {fuel : Nat} (hfuel : chars.length < fuel)
    (acc rest : List Char) :
    readCharsAux fuel acc (chars.flatMap escapeChar ++ '"' :: rest) =
      .ok (acc.reverse ++ chars, rest) := by
  induction chars generalizing fuel acc with
  | nil =>
      cases fuel with
      | zero => omega
      | succ fuel => simp [readCharsAux]
  | cons c chars ih =>
      cases fuel with
      | zero => omega
      | succ fuel =>
          rw [List.flatMap_cons, List.append_assoc, readCharsAux_escapeChar,
            ih (by simpa using hfuel)]
          simp

theorem length_le_length_escaped (chars : List Char) :
    chars.length ≤ (chars.flatMap escapeChar).length := by
  induction chars with
  | nil => simp
  | cons c chars ih =>
      have hc : 0 < (escapeChar c).length := List.length_pos_iff.2 (escapeChar_ne_nil c)
      rw [List.flatMap_cons, List.length_append, List.length_cons]
      omega

theorem readString_escaped (s : String) (rest : List Char) :
    readString (s.toList.flatMap escapeChar ++ '"' :: rest) = .ok (s, rest) := by
  -- A character is written as one or more, so the fuel of the text is enough for all of them.
  have hlength := length_le_length_escaped s.toList
  have hfuel : s.toList.length < (s.toList.flatMap escapeChar ++ '"' :: rest).length + 1 := by
    rw [List.length_append]
    omega
  unfold readString
  rw [readCharsAux_escaped s.toList hfuel]
  simp [bind, Except.bind]

/-! ## Numbers -/

def EndsNumber (rest : List Char) : Prop :=
  ∀ c ∈ rest.head?, isDecimalDigit c = false ∧ c ≠ '.' ∧ c ≠ 'e' ∧ c ≠ 'E'

theorem le_foldl_digits (n : Nat) (digits : List Char) :
    n ≤ digits.foldl (fun n c => 10 * n + (digitValue? 10 c).getD 0) n := by
  induction digits generalizing n with
  | nil => exact Nat.le_refl n
  | cons c digits ih =>
      have hstep := ih (10 * n + (digitValue? 10 c).getD 0)
      rw [List.foldl_cons]
      omega

theorem takeWord_digits {digits rest : List Char} (hdigits : ∀ c ∈ digits, isDecimalDigit c = true)
    (hrest : EndsNumber rest) {n value : Nat}
    (hvalue : digits.foldl (fun n c => 10 * n + (digitValue? 10 c).getD 0) n = value)
    (hlimit : value < wordLimit) : takeWord n (digits ++ rest) = (value, rest) := by
  -- What is taken so far is never above the value of all digits, so none is dropped.
  induction digits generalizing n with
  | nil =>
      rw [List.foldl_nil] at hvalue
      subst hvalue
      cases rest with
      | nil => rfl
      | cons c rest =>
          have hnot := (hrest c (by simp)).1
          have hnone : digitValue? 10 c = none := by simpa [isDecimalDigit] using hnot
          simp only [List.nil_append, takeWord, hnone]
  | cons c digits ih =>
      obtain ⟨d, hd⟩ := Option.isSome_iff_exists.1 (hdigits c List.mem_cons_self)
      rw [List.foldl_cons, hd, Option.getD_some, Nat.mul_comm] at hvalue
      have hle := le_foldl_digits (n * 10 + d) digits
      simp only [List.cons_append, takeWord, hd]
      rw [if_pos (by omega)]
      exact ih (fun c hc => hdigits c (List.mem_cons_of_mem _ hc)) hvalue

/-- Only zero is written with a zero in front. -/
theorem decimal_eq_zero_cons {n : Nat} {next : List Char} (h : decimal n = '0' :: next) :
    next = [] := by
  induction n using Nat.strongRecOn generalizing next with
  | ind n ih =>
      by_cases hn : n < 10
      · rw [decimal, numeral_of_lt hn] at h
        simp at h
        exact h.2
      · rw [decimal, numeral_of_le (by omega) (by omega)] at h
        rcases List.append_eq_cons_iff.1 h with ⟨hnil, _⟩ | ⟨front, hfront, _⟩
        · exact absurd hnil (numeral_ne_nil 10 (n / 10))
        · have hempty := ih (n / 10) (by omega) hfront
          have hvalue := ofDecimal_decimal (n / 10)
          rw [decimal, hfront, hempty] at hvalue
          have hzero : ofDecimal ['0'] = 0 := by decide
          omega

theorem readNumber_decimal {n : Nat} (hn : n < wordLimit) {rest : List Char}
    (hrest : EndsNumber rest) :
    readNumber false (decimal n ++ rest) = .ok (.natural n, rest) := by
  have hword := takeWord_digits (decimal_digits n) hrest (ofDecimal_decimal n) hn
  have hdigits := decimal_digits n
  have hnotDigit : rest.head?.any isDecimalDigit = false := by
    cases rest with
    | nil => rfl
    | cons c rest => simpa using (hrest c (by simp)).1
  cases hdecimal : decimal n with
  | nil => exact absurd hdecimal (numeral_ne_nil 10 n)
  | cons c next =>
      have hc : isDecimalDigit c = true := hdigits c (hdecimal ▸ List.mem_cons_self)
      have hlead : ¬(c = '0' ∧ (next ++ rest).head?.any isDecimalDigit = true) := by
        rintro ⟨rfl, hany⟩
        rw [decimal_eq_zero_cons hdecimal, List.nil_append, hnotDigit] at hany
        cases hany
      rw [hdecimal, List.cons_append] at hword
      simp only [List.cons_append, readNumber, hc, Bool.not_true, Bool.false_eq_true, if_false]
      rw [if_neg hlead, hword]
      cases rest with
      | nil => rfl
      | cons c' rest =>
          obtain ⟨hc', hpoint, hlower, hupper⟩ := hrest c' (by simp)
          simp only [List.takeWhile_cons, List.dropWhile_cons, hc', Bool.false_eq_true, if_false]
          split
          · rename_i heq
            exact absurd (List.cons.inj heq).1 hpoint
          · rename_i heq
            exact absurd (List.cons.inj heq).1 hlower
          · rename_i heq
            exact absurd (List.cons.inj heq).1 hupper
          · rfl

/-! ## Spaces -/

theorem skipSpace_of_space {c : Char} (hc : isSpace c = true) (text : List Char) :
    skipSpace (c :: text) = skipSpace text := by
  rw [skipSpace, List.dropWhile_cons, if_pos hc, skipSpace]

theorem skipSpace_of_not_space {c : Char} (hc : isSpace c = false) (text : List Char) :
    skipSpace (c :: text) = c :: text := by
  rw [skipSpace, List.dropWhile_cons, hc]
  rfl

theorem skipSpace_newline (level : Nat) (text : List Char) :
    skipSpace (newline level ++ text) = skipSpace text := by
  rw [newline, List.cons_append, skipSpace_of_space (by decide)]
  induction 2 * level with
  | zero => rfl
  | succ n ih =>
      rw [List.replicate_succ, List.cons_append, skipSpace_of_space (by decide)]
      exact ih

theorem isSpace_of_isDecimalDigit {c : Char} (hc : isDecimalDigit c = true) :
    isSpace c = false := by
  have hnot : ∀ c', isSpace c' = true → isDecimalDigit c' = false := by
    intro c' hspace
    simp only [isSpace, Bool.or_eq_true, beq_iff_eq] at hspace
    rcases hspace with ((rfl | rfl) | rfl) | rfl <;> decide
  cases hspace : isSpace c with
  | false => rfl
  | true => rw [hnot c hspace] at hc; cases hc

/-! ## Values -/

/-- Whether a reader reads a value back where it stands after a space, inside brackets. -/
def Reads {α : Type} (read : Reader α) (v : Json) (value : α) : Prop :=
  ∀ level rest, EndsNumber rest →
    read (' ' :: (prettyChars level v ++ rest)) = .ok (value, rest)

theorem reads_natural (expected : String) {limit n : Nat} (hn : n < limit)
    (hlimit : limit ≤ wordLimit) : Reads (readNatural expected limit) (.natural n) n := by
  intro level rest hrest
  have hsign : ¬Int.ofNat n < 0 := Int.not_lt.2 (Int.natCast_nonneg n)
  have htext : prettyChars level (.natural n) = decimal n := by
    rw [natural, prettyChars, decimalInt, if_neg hsign]
    rfl
  have hread := readNumber_decimal (Nat.lt_of_lt_of_le hn hlimit) hrest
  have hdigits := decimal_digits n
  rw [htext]
  cases hdecimal : decimal n with
  | nil => exact absurd hdecimal (numeral_ne_nil 10 n)
  | cons c next =>
      have hc : isDecimalDigit c = true := hdigits c (hdecimal ▸ List.mem_cons_self)
      have hminus : c ≠ '-' := by
        rintro rfl
        revert hc
        decide
      rw [hdecimal, List.cons_append] at hread
      unfold readNatural
      rw [skipSpace_of_space (by decide), List.cons_append,
        skipSpace_of_not_space (isSpace_of_isDecimalDigit hc)]
      split
      · rename_i heq
        exact absurd (List.cons.inj heq).1 hminus
      · rename_i heq
        cases heq
      · rename_i heq
        cases heq
        rw [if_pos hc, hread]
        simp [bind, Except.bind, Number.toNatural, hn]

theorem reads_uint32 (n : UInt32) : Reads readUInt32 (.natural n.toNat) n := by
  intro level rest hrest
  have hread := reads_natural "u32" n.toNat_lt (by decide) level rest hrest
  simp only [readUInt32, UInt32.size]
  rw [hread]
  simp [bind, Except.bind]

theorem reads_uint64 (n : UInt64) : Reads readUInt64 (.natural n.toNat) n := by
  intro level rest hrest
  have hread := reads_natural "u64" n.toNat_lt (by decide) level rest hrest
  simp only [readUInt64, UInt64.size]
  rw [hread]
  simp [bind, Except.bind]

theorem reads_string (expected s : String) : Reads (readText expected) (.string s) s := by
  intro level rest _
  have hread := readString_escaped s rest
  simp only [prettyChars, quoted, List.cons_append, List.append_assoc, List.nil_append, readText]
  rw [skipSpace_of_space (by decide), skipSpace_of_not_space (by decide)]
  exact hread

theorem reads_parsed {α : Type} (expected : String) {parse : String → Except String α}
    {s : String} {value : α} (hparse : parse s = .ok value) :
    Reads (readParsed expected parse) (.string s) value := by
  intro level rest hrest
  have hread := reads_string expected s level rest hrest
  unfold readParsed
  rw [hread]
  simp [bind, Except.bind, hparse]

/-! ## Objects -/

theorem reads_field {σ β : Type} (name : String) (get : σ → Option β) (set : β → σ → σ)
    {read : Reader β} {v : Json} {value : β} (hread : Reads read v value) (draft : σ) :
    Reads ((Field.of name get set read).read draft) v (set value draft) := by
  intro level rest hrest
  simp only [Field.of]
  rw [hread level rest hrest]
  simp [bind, Except.bind]

def memberText (level : Nat) (member : String × Json) : List Char :=
  newline level ++ '"' :: (member.1.toList.flatMap escapeChar ++
    '"' :: ':' :: ' ' :: prettyChars level member.2)

def moreMembers (level : Nat) (members : List (String × Json)) : List Char :=
  members.flatMap fun member => ',' :: memberText level member

theorem prettyMembers_cons (level : Nat) (member : String × Json)
    (members : List (String × Json)) :
    prettyMembers level (member :: members) = memberText level member ++
      moreMembers level members := by
  induction members generalizing member with
  | nil => simp [prettyMembers, memberText, moreMembers, quoted]
  | cons next members ih =>
      rw [prettyMembers, ih]
      · simp [memberText, moreMembers, quoted]
      · exact List.cons_ne_nil _ _

theorem endsNumber_moreMembers (level level' : Nat) (members : List (String × Json))
    (rest : List Char) :
    EndsNumber (moreMembers level members ++ (newline level' ++ rest)) := by
  intro c hc
  cases members with
  | nil =>
      simp [moreMembers, newline] at hc
      subst hc
      decide
  | cons member members =>
      simp [moreMembers] at hc
      subst hc
      decide

namespace Schema

variable {σ α : Type}

/-- Whether members fill a draft, each the field of its name, which nothing has filled yet. -/
inductive Fills (s : Schema σ α) : σ → List (String × Json) → σ → Prop
  | nil (draft : σ) : Fills s draft [] draft
  | cons {name : String} {v : Json} {members : List (String × Json)} {draft draft' draft'' : σ}
      {field : Field σ} (hfield : s.fields.find? (·.name == name) = some field)
      (hset : field.isSet draft = false) (hread : Reads (field.read draft) v draft')
      (hrest : Fills s draft' members draft'') : Fills s draft ((name, v) :: members) draft''

variable {s : Schema σ α}

theorem readMember_memberText {name : String} {v : Json} {draft draft' : σ} {field : Field σ}
    (hfield : s.fields.find? (·.name == name) = some field) (hset : field.isSet draft = false)
    (hread : Reads (field.read draft) v draft') (level : Nat) {rest : List Char}
    (hrest : EndsNumber rest) :
    s.readMember draft (name.toList.flatMap escapeChar ++
      '"' :: ':' :: ' ' :: (prettyChars level v ++ rest)) = .ok (draft', rest) := by
  have hvalue := hread level rest hrest
  unfold readMember
  rw [readString_escaped]
  simp [bind, Except.bind, hfield, hset, readColon, skipSpace_of_not_space, isSpace, hvalue]

theorem readNextName_memberText (level : Nat) (name : String) (v : Json) (rest : List Char) :
    readNextName (memberText level (name, v) ++ rest) =
      .ok (name.toList.flatMap escapeChar ++
        '"' :: ':' :: ' ' :: (prettyChars level v ++ rest)) := by
  unfold readNextName memberText
  rw [List.append_assoc, skipSpace_newline, List.cons_append, skipSpace_of_not_space (by decide)]
  simp

theorem readMembersAux_moreMembers {draft draft' : σ} {members : List (String × Json)}
    (h : s.Fills draft members draft') (level level' : Nat) (rest : List Char) {fuel : Nat}
    (hfuel : members.length < fuel) :
    s.readMembersAux fuel draft
      (moreMembers level members ++ (newline level' ++ '\x7d' :: rest)) = .ok (draft', rest) := by
  induction h generalizing fuel with
  | nil draft =>
      cases fuel with
      | zero => omega
      | succ fuel =>
          simp only [moreMembers, List.flatMap_nil, List.nil_append, readMembersAux]
          rw [skipSpace_newline, skipSpace_of_not_space (by decide)]
          rfl
  | @cons name v members draft draft' draft'' field hfield hset hread _ ih =>
      cases fuel with
      | zero => omega
      | succ fuel =>
          have hshorter : members.length < fuel := by simpa using hfuel
          have hmember := readMember_memberText hfield hset hread level
            (endsNumber_moreMembers level level' members ('\x7d' :: rest))
          have htext : moreMembers level ((name, v) :: members) ++
              (newline level' ++ '\x7d' :: rest) = ',' :: (memberText level (name, v) ++
                (moreMembers level members ++ (newline level' ++ '\x7d' :: rest))) := by
            simp [moreMembers]
          rw [htext, readMembersAux, skipSpace_of_not_space (by decide)]
          simp only
          rw [if_neg (by decide), if_pos trivial, readNextName_memberText]
          simp only [bind, Except.bind]
          rw [hmember]
          exact ih hshorter

theorem length_le_length_moreMembers (level : Nat) (members : List (String × Json)) :
    members.length ≤ (moreMembers level members).length := by
  induction members with
  | nil => simp
  | cons member members ih =>
      have htext : moreMembers level (member :: members) =
          ',' :: (memberText level member ++ moreMembers level members) := by
        simp [moreMembers]
      rw [htext, List.length_cons, List.length_cons, List.length_append]
      omega

theorem readMembers_prettyMembers {draft : σ} {members : List (String × Json)}
    (h : s.Fills s.blank members draft) (hne : members ≠ []) (level level' : Nat)
    (rest : List Char) :
    s.readMembers (prettyMembers level members ++ (newline level' ++ '\x7d' :: rest)) =
      .ok (draft, rest) := by
  cases h with
  | nil => exact absurd rfl hne
  | @cons name v members _ draft' _ field hfield hset hread hmore =>
      have hmember := readMember_memberText hfield hset hread level
        (endsNumber_moreMembers level level' members ('\x7d' :: rest))
      have hlength := length_le_length_moreMembers level members
      have hfuel : members.length <
          (moreMembers level members ++ (newline level' ++ '\x7d' :: rest)).length := by
        simp only [List.length_append, List.length_cons]
        omega
      have htext : prettyMembers level ((name, v) :: members) ++
          (newline level' ++ '\x7d' :: rest) = newline level ++ '"' ::
            (name.toList.flatMap escapeChar ++ '"' :: ':' :: ' ' :: (prettyChars level v ++
              (moreMembers level members ++ (newline level' ++ '\x7d' :: rest)))) := by
        rw [prettyMembers_cons]
        simp [memberText]
      unfold readMembers
      rw [htext, skipSpace_newline, skipSpace_of_not_space (by decide)]
      simp only
      rw [if_neg (by decide), if_pos trivial]
      simp only [bind, Except.bind]
      rw [hmember]
      exact readMembersAux_moreMembers hmore level level' rest hfuel

/-- An object that was written with the fields of a record reads as that record. -/
theorem ofString_pretty {draft : σ} {members : List (String × Json)} {record : α}
    (h : s.Fills s.blank members draft) (hne : members ≠ [])
    (hfinish : s.finish draft = .ok record) :
    s.ofString (Json.object members).pretty = .ok record := by
  have htext : (Json.object members).pretty.toList =
      '\x7b' :: (prettyMembers 1 members ++ (newline 0 ++ ['\x7d'])) := by
    rw [pretty, String.toList_ofList, prettyChars]
    · simp
    · exact hne
  have hmembers := readMembers_prettyMembers h hne 1 0 []
  simp only [ofString, read]
  rw [htext, skipSpace_of_not_space (by decide)]
  simp only [bind, Except.bind]
  rw [if_pos trivial, hmembers]
  simp [hfinish, skipSpace]

end Schema

end Rendezvous.Json
