import Rendezvous.Proofs.ReadBack
import Rendezvous.Text.Hex

/-!
# The grammar of JSON texts

What a text has to look like to be a string, a number or any other value is said here
apart from the readers, with gaps wherever white space may stand. Main statements: a
string is read as what it spells, and a value of no interest is stepped over if it is
well-formed, whatever follows it.
-/

namespace Rendezvous.Json

open Text

/-! ## Gaps -/

def IsGap (gap : List Char) : Prop := gap.all isSpace = true

instance (gap : List Char) : Decidable (IsGap gap) := inferInstanceAs (Decidable (_ = true))

theorem skipSpace_append {gap : List Char} (hgap : IsGap gap) (text : List Char) :
    skipSpace (gap ++ text) = skipSpace text :=
  List.dropWhile_append_of_pos (List.all_eq_true.1 hgap)

theorem skipSpace_skipSpace (text : List Char) : skipSpace (skipSpace text) = skipSpace text := by
  induction text with
  | nil => rfl
  | cons c text ih =>
      cases hc : isSpace c with
      | true => rw [skipSpace_of_space hc, ih]
      | false => rw [skipSpace_of_not_space hc, skipSpace_of_not_space hc]

theorem skipSpace_append_cons {gap : List Char} (hgap : IsGap gap) {c : Char}
    (hc : isSpace c = false) (text : List Char) : skipSpace (gap ++ c :: text) = c :: text := by
  rw [skipSpace_append hgap, skipSpace_of_not_space hc]

def IsCloser (c : Char) : Prop := c = ',' ∨ c = ']' ∨ c = '\x7d'

/-- No number goes on where a gap is closed by a comma or a bracket. -/
theorem endsNumber_of_closer {gap : List Char} (hgap : IsGap gap) {c : Char} (hc : IsCloser c)
    (text : List Char) : EndsNumber (gap ++ c :: text) := by
  have hspace : ∀ c, isSpace c = true →
      isDecimalDigit c = false ∧ c ≠ '.' ∧ c ≠ 'e' ∧ c ≠ 'E' := by
    intro c hspace
    simp only [isSpace, Bool.or_eq_true, beq_iff_eq] at hspace
    rcases hspace with ((rfl | rfl) | rfl) | rfl <;> decide
  intro c' hc'
  cases gap with
  | nil =>
      cases hc'
      rcases hc with rfl | rfl | rfl <;> decide
  | cons first gap =>
      cases hc'
      exact hspace _ (List.all_eq_true.1 hgap _ List.mem_cons_self)

/-! ## Strings -/

/-- The letters of the short escapes, with the characters that they stand for. -/
def shortEscapes : List (Char × Char) :=
  [('"', '"'), ('\\', '\\'), ('/', '/'), ('b', '\x08'), ('f', '\x0c'), ('n', '\n'), ('r', '\r'),
    ('t', '\t')]

def IsPlain (c : Char) : Prop := c ≠ '"' ∧ c ≠ '\\' ∧ 0x20 ≤ c.toNat

instance (c : Char) : Decidable (IsPlain c) := inferInstanceAs (Decidable (_ ∧ _ ∧ _))

/-- Four hexadecimal digits, in either case, and the number that they are. -/
def IsHexRow (row : List Char) (n : Nat) : Prop :=
  ∃ a b c d i j k l, row = [a, b, c, d] ∧ n = ((i * 16 + j) * 16 + k) * 16 + l ∧
    IsHexDigit a i ∧ IsHexDigit b j ∧ IsHexDigit c k ∧ IsHexDigit d l

/-- What may stand for a character between quotes. One above U+FFFF may be escaped by the two
halves of its surrogate pair. -/
inductive SpellsChar : List Char → Char → Prop
  | plain {c : Char} (hc : IsPlain c) : SpellsChar [c] c
  | short {letter c : Char} (hc : (letter, c) ∈ shortEscapes) : SpellsChar ['\\', letter] c
  | unicode {row : List Char} {c : Char} (hrow : IsHexRow row c.toNat) :
      SpellsChar ('\\' :: 'u' :: row) c
  | pair {row row' : List Char} {c : Char} (hc : 0x10000 ≤ c.toNat)
      (hrow : IsHexRow row (0xd800 + (c.toNat - 0x10000) / 0x400))
      (hrow' : IsHexRow row' (0xdc00 + (c.toNat - 0x10000) % 0x400)) :
      SpellsChar ('\\' :: 'u' :: (row ++ '\\' :: 'u' :: row')) c

/-- Whether a text between quotes spells a row of characters. -/
inductive Spells : List Char → List Char → Prop
  | nil : Spells [] []
  | cons {text body chars : List Char} {c : Char} (hc : SpellsChar text c)
      (h : Spells body chars) : Spells (text ++ body) (c :: chars)

theorem spells_self {chars : List Char} (h : chars.all (fun c => IsPlain c) = true) :
    Spells chars chars := by
  induction chars with
  | nil => exact .nil
  | cons c chars ih =>
      rw [List.all_cons, Bool.and_eq_true] at h
      exact .cons (.plain (of_decide_eq_true h.1)) (ih h.2)

theorem readHexEscape_of_row {row : List Char} {n : Nat} (h : IsHexRow row n) (rest : List Char) :
    readHexEscape (row ++ rest) = .ok (n, rest) := by
  obtain ⟨a, b, c, d, i, j, k, l, rfl, rfl, ha, hb, hc, hd⟩ := h
  simp only [List.cons_append, List.nil_append, readHexEscape, digitValue?_eq_some_iff.2 ha,
    digitValue?_eq_some_iff.2 hb, digitValue?_eq_some_iff.2 hc, digitValue?_eq_some_iff.2 hd]

theorem readEscape_short {letter c : Char} (hc : (letter, c) ∈ shortEscapes) (rest : List Char) :
    readEscape (letter :: rest) = .ok (c, rest) := by
  simp only [shortEscapes, List.mem_cons, Prod.mk.injEq, List.not_mem_nil, or_false] at hc
  obtain ⟨rfl, rfl⟩ | ⟨rfl, rfl⟩ | ⟨rfl, rfl⟩ | ⟨rfl, rfl⟩ | ⟨rfl, rfl⟩ | ⟨rfl, rfl⟩ | ⟨rfl, rfl⟩ |
    ⟨rfl, rfl⟩ := hc <;> rfl

/-- No character is half of a surrogate pair. -/
theorem not_isSurrogate (c : Char) :
    isTrailingSurrogate c.toNat = false ∧ isLeadingSurrogate c.toNat = false := by
  have hvalid : c.toNat < 0xd800 ∨ 0xdfff < c.toNat ∧ c.toNat < 0x110000 := c.valid
  simp only [isTrailingSurrogate, isLeadingSurrogate, Bool.and_eq_false_iff,
    decide_eq_false_iff_not]
  omega

theorem readEscape_unicode {row : List Char} {c : Char} (hc : IsHexRow row c.toNat)
    (rest : List Char) : readEscape ('u' :: (row ++ rest)) = .ok (c, rest) := by
  obtain ⟨htrailing, hleading⟩ := not_isSurrogate c
  simp [readEscape, readHexEscape_of_row hc, bind, Except.bind, htrailing, hleading,
    Char.ofNat_toNat]

theorem readEscape_pair {row row' : List Char} {c : Char} (hc : 0x10000 ≤ c.toNat)
    (hrow : IsHexRow row (0xd800 + (c.toNat - 0x10000) / 0x400))
    (hrow' : IsHexRow row' (0xdc00 + (c.toNat - 0x10000) % 0x400)) (rest : List Char) :
    readEscape ('u' :: (row ++ '\\' :: 'u' :: (row' ++ rest))) = .ok (c, rest) := by
  have hvalid : c.toNat < 0xd800 ∨ 0xdfff < c.toNat ∧ c.toNat < 0x110000 := c.valid
  have hfirst : isTrailingSurrogate (0xd800 + (c.toNat - 0x10000) / 0x400) = false ∧
      isLeadingSurrogate (0xd800 + (c.toNat - 0x10000) / 0x400) = true := by
    simp only [isTrailingSurrogate, isLeadingSurrogate, Bool.and_eq_false_iff,
      decide_eq_false_iff_not, Bool.and_eq_true, decide_eq_true_eq]
    omega
  have hsecond : isTrailingSurrogate (0xdc00 + (c.toNat - 0x10000) % 0x400) = true := by
    simp only [isTrailingSurrogate, Bool.and_eq_true, decide_eq_true_eq]
    omega
  have hpair : pairChar (0xd800 + (c.toNat - 0x10000) / 0x400)
      (0xdc00 + (c.toNat - 0x10000) % 0x400) = c := by
    rw [pairChar, Nat.add_sub_cancel_left, Nat.add_sub_cancel_left, Nat.add_assoc,
      Nat.mul_comm, Nat.div_add_mod, Nat.add_sub_cancel' hc, Char.ofNat_toNat]
  simp [readEscape, readHexEscape_of_row hrow, readHexEscape_of_row hrow', bind, Except.bind,
    hfirst, readTrailingSurrogate, hsecond, hpair]

theorem readCharsAux_of_spellsChar {text : List Char} {c : Char} (h : SpellsChar text c)
    (fuel : Nat) (acc rest : List Char) :
    readCharsAux (fuel + 1) acc (text ++ rest) = readCharsAux fuel (c :: acc) rest := by
  have hescape : ∀ escape : List Char, readEscape escape = .ok (c, rest) →
      readCharsAux (fuel + 1) acc ('\\' :: escape) = readCharsAux fuel (c :: acc) rest := by
    intro escape hread
    rw [readCharsAux, if_neg (by decide), if_pos rfl, hread]
    rfl
  cases h with
  | plain hc =>
      obtain ⟨hquote, hbackslash, hcontrol⟩ := hc
      rw [List.singleton_append, readCharsAux, if_neg hquote, if_neg hbackslash,
        if_neg (Nat.not_lt.2 hcontrol)]
  | short hc => exact hescape _ (readEscape_short hc rest)
  | unicode hrow => exact hescape _ (readEscape_unicode hrow rest)
  | @pair row row' _ hc hrow hrow' =>
      have htext : '\\' :: 'u' :: (row ++ '\\' :: 'u' :: row') ++ rest =
          '\\' :: 'u' :: (row ++ '\\' :: 'u' :: (row' ++ rest)) := by simp
      rw [htext]
      exact hescape _ (readEscape_pair hc hrow hrow' rest)

theorem readCharsAux_of_spells {body chars : List Char} (h : Spells body chars) {fuel : Nat}
    (hfuel : chars.length < fuel) (acc rest : List Char) :
    readCharsAux fuel acc (body ++ '"' :: rest) = .ok (acc.reverse ++ chars, rest) := by
  induction h generalizing fuel acc with
  | nil =>
      cases fuel with
      | zero => cases hfuel
      | succ fuel => simp [readCharsAux]
  | @cons text body chars c hc _ ih =>
      cases fuel with
      | zero => cases hfuel
      | succ fuel =>
          rw [List.append_assoc, readCharsAux_of_spellsChar hc, ih (Nat.lt_of_succ_lt_succ hfuel)]
          simp

theorem SpellsChar.ne_nil {text : List Char} {c : Char} (h : SpellsChar text c) : text ≠ [] := by
  cases h <;> exact List.cons_ne_nil _ _

theorem Spells.length_le {body chars : List Char} (h : Spells body chars) :
    chars.length ≤ body.length := by
  induction h with
  | nil => exact Nat.le_refl 0
  | cons hc _ ih =>
      have hpos := List.length_pos_iff.2 hc.ne_nil
      rw [List.length_append, List.length_cons]
      omega

/-- A string is read as what it spells. -/
theorem readString_of_spells {body : List Char} {s : String} (h : Spells body s.toList)
    (rest : List Char) : readString (body ++ '"' :: rest) = .ok (s, rest) := by
  have hfuel : s.toList.length < (body ++ '"' :: rest).length + 1 := by
    have hlength := h.length_le
    rw [List.length_append]
    omega
  rw [readString, readCharsAux_of_spells h hfuel]
  simp [bind, Except.bind]

/-- What may stand between quotes at all; an escape of four digits need not name a character. -/
inductive IsBody : List Char → Prop
  | nil : IsBody []
  | plain {c : Char} {body : List Char} (hc : IsPlain c) (h : IsBody body) : IsBody (c :: body)
  | short {letter : Char} {body : List Char} (hletter : letter ∈ shortEscapes.map (·.1))
      (h : IsBody body) : IsBody ('\\' :: letter :: body)
  | unicode {row body : List Char} {n : Nat} (hrow : IsHexRow row n) (h : IsBody body) :
      IsBody ('\\' :: 'u' :: (row ++ body))

theorem skipEscape_short {letter : Char} (h : letter ∈ shortEscapes.map (·.1)) (rest : List Char) :
    skipEscape (letter :: rest) = .ok rest := by
  simp only [shortEscapes, List.map_cons, List.map_nil, List.mem_cons, List.not_mem_nil,
    or_false] at h
  obtain rfl | rfl | rfl | rfl | rfl | rfl | rfl | rfl := h <;> rfl

theorem skipEscape_unicode {row : List Char} {n : Nat} (hrow : IsHexRow row n)
    (rest : List Char) : skipEscape ('u' :: (row ++ rest)) = .ok rest := by
  rw [skipEscape, readHexEscape_of_row hrow]
  rfl

theorem skipStringAux_of_isBody {body : List Char} (h : IsBody body) {fuel : Nat}
    (hfuel : body.length < fuel) (rest : List Char) :
    skipStringAux fuel (body ++ '"' :: rest) = .ok rest := by
  induction h generalizing fuel with
  | nil =>
      cases fuel with
      | zero => cases hfuel
      | succ fuel => rfl
  | plain hc _ ih =>
      obtain ⟨hquote, hbackslash, hcontrol⟩ := hc
      cases fuel with
      | zero => cases hfuel
      | succ fuel =>
          rw [List.cons_append, skipStringAux, if_neg hquote, if_neg hbackslash,
            if_neg (Nat.not_lt.2 hcontrol)]
          exact ih (Nat.lt_of_succ_lt_succ hfuel)
  | short hletter _ ih =>
      cases fuel with
      | zero => cases hfuel
      | succ fuel =>
          rw [List.cons_append, List.cons_append, skipStringAux, if_neg (by decide), if_pos rfl,
            skipEscape_short hletter]
          simp only [List.length_cons] at hfuel
          exact ih (by omega)
  | unicode hrow _ ih =>
      cases fuel with
      | zero => cases hfuel
      | succ fuel =>
          rw [List.cons_append, List.cons_append, List.append_assoc, skipStringAux,
            if_neg (by decide), if_pos rfl, skipEscape_unicode hrow]
          simp only [List.length_cons, List.length_append] at hfuel
          exact ih (by omega)

theorem skipString_of_isBody {body : List Char} (h : IsBody body) (rest : List Char) :
    skipString (body ++ '"' :: rest) = .ok rest := by
  refine skipStringAux_of_isBody h ?_ rest
  rw [List.length_append]
  omega

/-! ## Numbers -/

def IsDigits (digits : List Char) : Prop :=
  digits ≠ [] ∧ ∀ c ∈ digits, isDecimalDigit c = true

/-- The digits of an integer: a lone zero, or no zero in front. -/
def IsInteger (digits : List Char) : Prop :=
  IsDigits digits ∧ (digits.head? = some '0' → digits = ['0'])

inductive IsFraction : List Char → Prop
  | none : IsFraction []
  | some {digits : List Char} (h : IsDigits digits) : IsFraction ('.' :: digits)

/-- An exponent with digits behind it and perhaps a sign between, or nothing. -/
inductive IsExponent : List Char → Prop
  | none : IsExponent []
  | some {letter : Char} {sign digits : List Char} (hletter : letter = 'e' ∨ letter = 'E')
      (hsign : sign = [] ∨ sign = ['+'] ∨ sign = ['-']) (h : IsDigits digits) :
      IsExponent (letter :: (sign ++ digits))

/-- A number without its sign. -/
def IsMagnitude (text : List Char) : Prop :=
  ∃ digits fraction exponent, text = digits ++ (fraction ++ exponent) ∧ IsInteger digits ∧
    IsFraction fraction ∧ IsExponent exponent

def EndsDigits (rest : List Char) : Prop := ∀ c ∈ rest.head?, isDecimalDigit c = false

theorem dropWhile_digits {digits rest : List Char} (h : ∀ c ∈ digits, isDecimalDigit c = true)
    (hrest : EndsDigits rest) : (digits ++ rest).dropWhile isDecimalDigit = rest := by
  rw [List.dropWhile_append_of_pos h]
  cases rest with
  | nil => rfl
  | cons c rest => rw [List.dropWhile_cons, hrest c rfl]; rfl

theorem IsDigits.head_append {digits : List Char} (h : IsDigits digits) (rest : List Char) :
    (digits ++ rest).head?.any isDecimalDigit = true := by
  obtain ⟨hne, hall⟩ := h
  cases digits with
  | nil => exact absurd rfl hne
  | cons c digits => exact hall c List.mem_cons_self

theorem IsDigits.append_ne_cons {digits : List Char} (h : IsDigits digits) {c : Char}
    (hc : isDecimalDigit c = false) (rest tail : List Char) : digits ++ rest ≠ c :: tail := by
  intro heq
  have hhead := h.head_append rest
  rw [heq, List.head?_cons, Option.any_some, hc] at hhead
  cases hhead

theorem skipExponent_of_digits {sign digits rest : List Char}
    (hsign : sign = [] ∨ sign = ['+'] ∨ sign = ['-']) (h : IsDigits digits)
    (hrest : EndsDigits rest) : skipExponent (sign ++ (digits ++ rest)) = .ok rest := by
  have hdigits : ∀ text, text = digits ++ rest →
      (if text.head?.any isDecimalDigit then .ok (text.dropWhile isDecimalDigit)
        else .error .invalidNumber : Except Error (List Char)) = .ok rest := by
    rintro text rfl
    rw [if_pos (h.head_append rest), dropWhile_digits h.2 hrest]
  unfold skipExponent
  rcases hsign with rfl | rfl | rfl
  · refine hdigits _ ?_
    -- No digit is a sign, so nothing is taken off the digits.
    rw [List.nil_append]
    split
    · rename_i heq
      exact absurd heq (h.append_ne_cons (by decide) _ _)
    · rename_i heq
      exact absurd heq (h.append_ne_cons (by decide) _ _)
    · rfl
  · exact hdigits _ rfl
  · exact hdigits _ rfl

theorem EndsNumber.endsDigits {rest : List Char} (h : EndsNumber rest) : EndsDigits rest :=
  fun c hc => (h c hc).1

/-- The exponent and what follows it, after the digits in front. -/
theorem endsDigits_exponent {exponent rest : List Char} (h : IsExponent exponent)
    (hrest : EndsNumber rest) : EndsDigits (exponent ++ rest) := by
  cases h with
  | none => exact hrest.endsDigits
  | some hletter =>
      intro c hc
      cases hc
      rcases hletter with rfl | rfl <;> decide

theorem endsDigits_fraction {fraction exponent rest : List Char} (h : IsFraction fraction)
    (hexponent : IsExponent exponent) (hrest : EndsNumber rest) :
    EndsDigits (fraction ++ (exponent ++ rest)) := by
  cases h with
  | none => exact (endsDigits_exponent hexponent hrest : EndsDigits (exponent ++ rest))
  | some =>
      intro c hc
      cases hc
      decide

/-- What is done with the text after the digits of a fraction, or of an integer without one. -/
theorem skip_exponent {exponent rest : List Char} (h : IsExponent exponent)
    (hrest : EndsNumber rest) :
    (match exponent ++ rest with
      | 'e' :: rest => skipExponent rest
      | 'E' :: rest => skipExponent rest
      | rest => .ok rest) = .ok rest := by
  cases h with
  | none =>
      rw [List.nil_append]
      split
      · exact absurd rfl (hrest 'e' rfl).2.2.1
      · exact absurd rfl (hrest 'E' rfl).2.2.2
      · rfl
  | @some letter sign digits hletter hsign hdigits =>
      have hskip := skipExponent_of_digits hsign hdigits hrest.endsDigits
      rw [← List.append_assoc] at hskip
      rcases hletter with rfl | rfl
      · exact hskip
      · exact hskip

theorem skipNumber_of_isMagnitude {text rest : List Char} (h : IsMagnitude text)
    (hrest : EndsNumber rest) : skipNumber (text ++ rest) = .ok rest := by
  obtain ⟨digits, fraction, exponent, rfl, ⟨⟨hne, hdigits⟩, hzero⟩, hfraction, hexponent⟩ := h
  have hends := endsDigits_fraction hfraction hexponent hrest
  have hdrop := dropWhile_digits hdigits hends
  have htext : digits ++ (fraction ++ exponent) ++ rest =
      digits ++ (fraction ++ (exponent ++ rest)) := by simp
  rw [htext]
  cases digits with
  | nil => exact absurd rfl hne
  | cons c next =>
      have hc : isDecimalDigit c = true := hdigits c List.mem_cons_self
      have hlead : ¬(c = '0' ∧
          (next ++ (fraction ++ (exponent ++ rest))).head?.any isDecimalDigit = true) := by
        rintro ⟨rfl, hany⟩
        rw [(List.cons.inj (hzero rfl)).2, List.nil_append] at hany
        obtain ⟨d, hd, hdigit⟩ := (Option.any_eq_true _ _).1 hany
        rw [hends d hd] at hdigit
        cases hdigit
      rw [List.cons_append] at hdrop ⊢
      rw [skipNumber, hc, Bool.not_true, if_neg Bool.false_ne_true, if_neg hlead, hdrop]
      cases hfraction with
      | none =>
          rw [List.nil_append]
          cases hexponent with
          | none =>
              rw [List.nil_append]
              split
              · exact absurd rfl (hrest '.' rfl).2.1
              · exact absurd rfl (hrest 'e' rfl).2.2.1
              · exact absurd rfl (hrest 'E' rfl).2.2.2
              · rfl
          | @some letter sign digits hletter hsign hmore =>
              have hskip := skipExponent_of_digits hsign hmore hrest.endsDigits
              rw [← List.append_assoc] at hskip
              rcases hletter with rfl | rfl
              · exact hskip
              · exact hskip
      | @some more hmore =>
          have hmoreEnds := endsDigits_exponent hexponent hrest
          simp only [List.cons_append]
          rw [if_pos (hmore.head_append _), dropWhile_digits hmore.2 hmoreEnds]
          exact skip_exponent hexponent hrest

/-! ## Values of no interest -/

inductive Piece where
  | value
  /-- An item of an array, with the gaps around it. -/
  | item
  /-- All items of an array, of which there is one at least. -/
  | items
  /-- A member of an object, with the gaps around it. -/
  | member
  /-- All members of an object, of which there is one at least. -/
  | members

/-- Whether a text is well-formed as a value, or as a part of one. -/
inductive WellFormed : Piece → List Char → Prop
  | nullWord : WellFormed .value ['n', 'u', 'l', 'l']
  | trueWord : WellFormed .value ['t', 'r', 'u', 'e']
  | falseWord : WellFormed .value ['f', 'a', 'l', 's', 'e']
  | number {text : List Char} (h : IsMagnitude text) : WellFormed .value text
  | negative {text : List Char} (h : IsMagnitude text) : WellFormed .value ('-' :: text)
  | string {body : List Char} (h : IsBody body) : WellFormed .value ('"' :: (body ++ ['"']))
  | emptyArray {gap : List Char} (hgap : IsGap gap) : WellFormed .value ('[' :: (gap ++ [']']))
  | array {text : List Char} (h : WellFormed .items text) :
      WellFormed .value ('[' :: (text ++ [']']))
  | emptyObject {gap : List Char} (hgap : IsGap gap) :
      WellFormed .value ('\x7b' :: (gap ++ ['\x7d']))
  | object {text : List Char} (h : WellFormed .members text) :
      WellFormed .value ('\x7b' :: (text ++ ['\x7d']))
  | item {before text after : List Char} (hbefore : IsGap before) (h : WellFormed .value text)
      (hafter : IsGap after) : WellFormed .item (before ++ (text ++ after))
  | lastItem {text : List Char} (h : WellFormed .item text) : WellFormed .items text
  | moreItems {text rest : List Char} (h : WellFormed .item text)
      (hrest : WellFormed .items rest) : WellFormed .items (text ++ ',' :: rest)
  | member {before body gap text : List Char} (hbefore : IsGap before) (hbody : IsBody body)
      (hgap : IsGap gap) (h : WellFormed .item text) :
      WellFormed .member (before ++ '"' :: (body ++ '"' :: (gap ++ ':' :: text)))
  | lastMember {text : List Char} (h : WellFormed .member text) : WellFormed .members text
  | moreMembers {text rest : List Char} (h : WellFormed .member text)
      (hrest : WellFormed .members rest) : WellFormed .members (text ++ ',' :: rest)

theorem IsMagnitude.cons {text : List Char} (h : IsMagnitude text) :
    ∃ c rest, text = c :: rest ∧ isDecimalDigit c = true := by
  obtain ⟨digits, fraction, exponent, rfl, ⟨⟨hne, hdigits⟩, _⟩, _, _⟩ := h
  cases digits with
  | nil => exact absurd rfl hne
  | cons c next => exact ⟨c, _, rfl, hdigits c List.mem_cons_self⟩

/-- Whether a text starts, white space aside, with what ends neither an array nor an object. -/
def Opens (text : List Char) : Prop :=
  ∃ c tail, skipSpace text = c :: tail ∧ c ≠ ']' ∧ c ≠ '\x7d'

theorem opens_cons {c : Char} (hspace : isSpace c = false) (hbracket : c ≠ ']')
    (hbrace : c ≠ '\x7d') (text : List Char) : Opens (c :: text) :=
  ⟨c, text, skipSpace_of_not_space hspace text, hbracket, hbrace⟩

theorem Opens.after_gap {gap text : List Char} (h : Opens text) (hgap : IsGap gap) :
    Opens (gap ++ text) := by
  rwa [Opens, skipSpace_append hgap]

theorem WellFormed.opens {piece : Piece} {text : List Char} (h : WellFormed piece text)
    (rest : List Char) : Opens (text ++ rest) := by
  induction h generalizing rest with
  | nullWord => exact opens_cons (by decide) (by decide) (by decide) _
  | trueWord => exact opens_cons (by decide) (by decide) (by decide) _
  | falseWord => exact opens_cons (by decide) (by decide) (by decide) _
  | number h =>
      obtain ⟨c, tail, rfl, hc⟩ := h.cons
      refine opens_cons (isSpace_of_isDecimalDigit hc) ?_ ?_ _
      · rintro rfl
        exact absurd hc (by decide)
      · rintro rfl
        exact absurd hc (by decide)
  | negative => exact opens_cons (by decide) (by decide) (by decide) _
  | string => exact opens_cons (by decide) (by decide) (by decide) _
  | emptyArray => exact opens_cons (by decide) (by decide) (by decide) _
  | array => exact opens_cons (by decide) (by decide) (by decide) _
  | emptyObject => exact opens_cons (by decide) (by decide) (by decide) _
  | object => exact opens_cons (by decide) (by decide) (by decide) _
  | item hbefore _ _ ih =>
      rw [List.append_assoc, List.append_assoc]
      exact (ih _).after_gap hbefore
  | lastItem _ ih => exact ih rest
  | moreItems _ _ ih _ =>
      rw [List.append_assoc]
      exact ih _
  | member hbefore =>
      rw [List.append_assoc]
      exact (opens_cons (by decide) (by decide) (by decide) _).after_gap hbefore
  | lastMember _ ih => exact ih rest
  | moreMembers _ _ ih _ =>
      rw [List.append_assoc]
      exact ih _

/-! ### Stepping over them -/

theorem skipValueAux_skipSpace (fuel : Nat) (text : List Char) :
    skipValueAux fuel (skipSpace text) = skipValueAux fuel text := by
  cases fuel with
  | zero => rfl
  | succ fuel => rw [skipValueAux, skipValueAux, skipSpace_skipSpace]

theorem skipValueAux_gap {gap : List Char} (hgap : IsGap gap) (fuel : Nat) (text : List Char) :
    skipValueAux fuel (gap ++ text) = skipValueAux fuel text := by
  rw [← skipValueAux_skipSpace, skipSpace_append hgap, skipValueAux_skipSpace]

theorem skipMemberAux_skipSpace (fuel : Nat) (text : List Char) :
    skipMemberAux fuel (skipSpace text) = skipMemberAux fuel text := by
  cases fuel with
  | zero => rfl
  | succ fuel => rw [skipMemberAux, skipMemberAux, skipSpace_skipSpace]

theorem skipValueAux_digit {c : Char} (hc : isDecimalDigit c = true) (fuel : Nat)
    (text : List Char) : skipValueAux (fuel + 1) (c :: text) = skipNumber (c :: text) := by
  rw [skipValueAux, skipSpace_of_not_space (isSpace_of_isDecimalDigit hc)]
  split
  all_goals
    rename_i heq
    cases heq
  all_goals first | rw [if_pos hc] | exact absurd hc (by decide)

/-- What follows the opening bracket of an array that is not empty. -/
theorem skipValueAux_array {text : List Char} (hopens : Opens text) (fuel : Nat) :
    skipValueAux (fuel + 1) ('[' :: text) =
      (skipValueAux fuel text).bind (skipItemsAux fuel) := by
  obtain ⟨c, tail, htext, hbracket, _⟩ := hopens
  rw [skipValueAux, skipSpace_of_not_space (by decide)]
  simp only
  rw [← skipValueAux_skipSpace fuel text, htext]
  split
  · rename_i heq
    cases heq
  · rename_i heq
    exact absurd (List.cons.inj heq).1 hbracket
  · rfl

/-- What follows the opening brace of an object that is not empty. -/
theorem skipValueAux_object {text : List Char} (hopens : Opens text) (fuel : Nat) :
    skipValueAux (fuel + 1) ('\x7b' :: text) =
      (skipMemberAux fuel text).bind (skipMembersAux fuel) := by
  obtain ⟨c, tail, htext, _, hbrace⟩ := hopens
  rw [skipValueAux, skipSpace_of_not_space (by decide)]
  simp only
  rw [← skipMemberAux_skipSpace fuel text, htext]
  split
  · rename_i heq
    cases heq
  · rename_i heq
    exact absurd (List.cons.inj heq).1 hbrace
  · rfl

theorem skipItemsAux_comma {gap : List Char} (hgap : IsGap gap) (fuel : Nat) (text : List Char) :
    skipItemsAux (fuel + 1) (gap ++ ',' :: text) =
      (skipValueAux fuel text).bind (skipItemsAux fuel) := by
  rw [skipItemsAux, skipSpace_append_cons hgap (by decide)]
  rfl

theorem skipItemsAux_bracket {gap : List Char} (hgap : IsGap gap) (fuel : Nat)
    (text : List Char) : skipItemsAux (fuel + 1) (gap ++ ']' :: text) = .ok text := by
  rw [skipItemsAux, skipSpace_append_cons hgap (by decide)]
  rfl

theorem skipMembersAux_comma {gap : List Char} (hgap : IsGap gap) (fuel : Nat)
    (text : List Char) :
    skipMembersAux (fuel + 1) (gap ++ ',' :: text) =
      (skipMemberAux fuel text).bind (skipMembersAux fuel) := by
  rw [skipMembersAux, skipSpace_append_cons hgap (by decide)]
  rfl

theorem skipMembersAux_brace {gap : List Char} (hgap : IsGap gap) (fuel : Nat)
    (text : List Char) : skipMembersAux (fuel + 1) (gap ++ '\x7d' :: text) = .ok text := by
  rw [skipMembersAux, skipSpace_append_cons hgap (by decide)]
  rfl

theorem skipMemberAux_of_isBody {before body gap : List Char} (hbefore : IsGap before)
    (hbody : IsBody body) (hgap : IsGap gap) (fuel : Nat) (text : List Char) :
    skipMemberAux (fuel + 1) (before ++ '"' :: (body ++ '"' :: (gap ++ ':' :: text))) =
      skipValueAux fuel text := by
  rw [skipMemberAux, skipSpace_append_cons hbefore (by decide)]
  simp only [skipString_of_isBody hbody, bind, Except.bind,
    skipSpace_append_cons hgap (by decide : isSpace ':' = false)]

/-- How each piece is stepped over where another character, or none, comes after it. -/
def Skips : Piece → List Char → Prop
  | .value, text => ∀ fuel rest, text.length ≤ fuel → EndsNumber rest →
      skipValueAux fuel (text ++ rest) = .ok rest
  | .item, text => ∀ fuel c rest, text.length ≤ fuel → IsCloser c →
      ∃ gap, IsGap gap ∧ skipValueAux fuel (text ++ c :: rest) = .ok (gap ++ c :: rest)
  | .items, text => ∀ fuel rest, text.length < fuel →
      (skipValueAux fuel (text ++ ']' :: rest)).bind (skipItemsAux fuel) = .ok rest
  | .member, text => ∀ fuel c rest, text.length ≤ fuel → IsCloser c →
      ∃ gap, IsGap gap ∧ skipMemberAux fuel (text ++ c :: rest) = .ok (gap ++ c :: rest)
  | .members, text => ∀ fuel rest, text.length < fuel →
      (skipMemberAux fuel (text ++ '\x7d' :: rest)).bind (skipMembersAux fuel) = .ok rest

theorem exists_fuel {c : Char} {text : List Char} {fuel : Nat} (h : (c :: text).length ≤ fuel) :
    ∃ k, fuel = k + 1 ∧ text.length ≤ k := by
  cases fuel with
  | zero => cases h
  | succ k => exact ⟨k, rfl, Nat.le_of_succ_le_succ h⟩

/-- Each piece uses up no more fuel than it has characters. -/
theorem WellFormed.skips {piece : Piece} {text : List Char} (h : WellFormed piece text) :
    Skips piece text := by
  induction h with
  | nullWord =>
      intro fuel rest hfuel _
      obtain ⟨k, rfl, _⟩ := exists_fuel hfuel
      rfl
  | trueWord =>
      intro fuel rest hfuel _
      obtain ⟨k, rfl, _⟩ := exists_fuel hfuel
      rfl
  | falseWord =>
      intro fuel rest hfuel _
      obtain ⟨k, rfl, _⟩ := exists_fuel hfuel
      rfl
  | number h =>
      intro fuel rest hfuel hrest
      have hskip := skipNumber_of_isMagnitude h hrest
      obtain ⟨c, tail, rfl, hc⟩ := h.cons
      obtain ⟨k, rfl, _⟩ := exists_fuel hfuel
      exact (skipValueAux_digit hc k _).trans hskip
  | negative h =>
      intro fuel rest hfuel hrest
      obtain ⟨k, rfl, _⟩ := exists_fuel hfuel
      exact skipNumber_of_isMagnitude h hrest
  | @string body hbody =>
      intro fuel rest hfuel _
      obtain ⟨k, rfl, _⟩ := exists_fuel hfuel
      have htext : '"' :: (body ++ ['"']) ++ rest = '"' :: (body ++ '"' :: rest) := by simp
      rw [htext]
      exact skipString_of_isBody hbody rest
  | @emptyArray gap hgap =>
      intro fuel rest hfuel _
      obtain ⟨k, rfl, _⟩ := exists_fuel hfuel
      have htext : '[' :: (gap ++ [']']) ++ rest = '[' :: (gap ++ ']' :: rest) := by simp
      rw [htext, skipValueAux, skipSpace_of_not_space (by decide)]
      simp only [skipSpace_append_cons hgap (by decide : isSpace ']' = false)]
  | @array text h ih =>
      intro fuel rest hfuel _
      obtain ⟨k, rfl, hk⟩ := exists_fuel hfuel
      have htext : '[' :: (text ++ [']']) ++ rest = '[' :: (text ++ ']' :: rest) := by simp
      rw [htext, skipValueAux_array (h.opens _)]
      exact ih k rest (Nat.lt_of_succ_le (by simpa using hk))
  | @emptyObject gap hgap =>
      intro fuel rest hfuel _
      obtain ⟨k, rfl, _⟩ := exists_fuel hfuel
      have htext : '\x7b' :: (gap ++ ['\x7d']) ++ rest = '\x7b' :: (gap ++ '\x7d' :: rest) := by
        simp
      rw [htext, skipValueAux, skipSpace_of_not_space (by decide)]
      simp only [skipSpace_append_cons hgap (by decide : isSpace '\x7d' = false)]
  | @object text h ih =>
      intro fuel rest hfuel _
      obtain ⟨k, rfl, hk⟩ := exists_fuel hfuel
      have htext : '\x7b' :: (text ++ ['\x7d']) ++ rest = '\x7b' :: (text ++ '\x7d' :: rest) := by
        simp
      rw [htext, skipValueAux_object (h.opens _)]
      exact ih k rest (Nat.lt_of_succ_le (by simpa using hk))
  | @item before text after hbefore _ hafter ih =>
      intro fuel c rest hfuel hc
      simp only [List.length_append] at hfuel
      refine ⟨after, hafter, ?_⟩
      rw [List.append_assoc, skipValueAux_gap hbefore, List.append_assoc]
      exact ih fuel _ (by omega) (endsNumber_of_closer hafter hc rest)
  | lastItem _ ih =>
      intro fuel rest hfuel
      obtain ⟨gap, hgap, hskip⟩ := ih fuel ']' rest (Nat.le_of_lt hfuel) (.inr (.inl rfl))
      obtain ⟨k, rfl⟩ := Nat.exists_eq_add_one_of_ne_zero (Nat.ne_zero_of_lt hfuel)
      rw [hskip]
      exact skipItemsAux_bracket hgap k rest
  | @moreItems text more _ _ ih ihmore =>
      intro fuel rest hfuel
      simp only [List.length_append, List.length_cons] at hfuel
      obtain ⟨gap, hgap, hskip⟩ := ih fuel ',' (more ++ ']' :: rest) (by omega) (.inl rfl)
      obtain ⟨k, rfl⟩ := Nat.exists_eq_add_one_of_ne_zero (Nat.ne_zero_of_lt hfuel)
      rw [List.append_assoc, List.cons_append, hskip]
      exact (skipItemsAux_comma hgap k _).trans (ihmore k rest (by omega))
  | @member before body gap text hbefore hbody hgap _ ih =>
      intro fuel c rest hfuel hc
      simp only [List.length_append, List.length_cons] at hfuel
      obtain ⟨k, rfl⟩ := Nat.exists_eq_add_one_of_ne_zero (by omega : fuel ≠ 0)
      obtain ⟨after, hafter, hskip⟩ := ih k c rest (by omega) hc
      refine ⟨after, hafter, ?_⟩
      simp only [List.append_assoc, List.cons_append]
      rw [skipMemberAux_of_isBody hbefore hbody hgap]
      exact hskip
  | lastMember _ ih =>
      intro fuel rest hfuel
      obtain ⟨gap, hgap, hskip⟩ := ih fuel '\x7d' rest (Nat.le_of_lt hfuel) (.inr (.inr rfl))
      obtain ⟨k, rfl⟩ := Nat.exists_eq_add_one_of_ne_zero (Nat.ne_zero_of_lt hfuel)
      rw [hskip]
      exact skipMembersAux_brace hgap k rest
  | @moreMembers text more _ _ ih ihmore =>
      intro fuel rest hfuel
      simp only [List.length_append, List.length_cons] at hfuel
      obtain ⟨gap, hgap, hskip⟩ := ih fuel ',' (more ++ '\x7d' :: rest) (by omega) (.inl rfl)
      obtain ⟨k, rfl⟩ := Nat.exists_eq_add_one_of_ne_zero (Nat.ne_zero_of_lt hfuel)
      rw [List.append_assoc, List.cons_append, hskip]
      exact (skipMembersAux_comma hgap k _).trans (ihmore k rest (by omega))

/-- A well-formed value is stepped over, with the gap in front of it. -/
theorem skipValue_of_wellFormed {gap text rest : List Char} (hgap : IsGap gap)
    (h : WellFormed .value text) (hrest : EndsNumber rest) :
    skipValue (gap ++ (text ++ rest)) = .ok rest := by
  rw [skipValue, skipValueAux_gap hgap]
  refine h.skips _ rest ?_ hrest
  simp only [List.length_append]
  omega

end Rendezvous.Json
