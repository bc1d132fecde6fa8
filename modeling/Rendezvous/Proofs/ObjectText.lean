import Mathlib.Data.List.Nodup
import Rendezvous.Proofs.JsonGrammar

/-!
# Objects in any layout

An object is a row of members with gaps between all tokens. A schema takes the members one
after the other: one that names a field which nothing has filled yet fills it, and one that
names no field is stepped over. Main statement: where each field is given at most once, by
a text that its reader reads, an object of any order and layout is read as the record of
the draft that it tells, whatever else it holds.
-/

namespace Rendezvous.Json

open Text

/-! ## Texts of objects -/

/-- A member as a text, with its name and the text of its value. -/
inductive MemberText : List Char → String → List Char → Prop
  | intro {before body gap gap' value after : List Char} {name : String}
      (hbefore : IsGap before) (hname : Spells body name.toList) (hgap : IsGap gap)
      (hgap' : IsGap gap') (hafter : IsGap after) :
      MemberText (before ++ '"' :: (body ++ '"' :: (gap ++ ':' :: (gap' ++ (value ++ after)))))
        name value

inductive MembersText : List Char → List (String × List Char) → Prop
  | last {text value : List Char} {name : String} (h : MemberText text name value) :
      MembersText text [(name, value)]
  | more {text value rest : List Char} {name : String} {ms : List (String × List Char)}
      (h : MemberText text name value) (hrest : MembersText rest ms) :
      MembersText (text ++ ',' :: rest) ((name, value) :: ms)

theorem MembersText.length_le {text : List Char} {ms : List (String × List Char)}
    (h : MembersText text ms) : ms.length ≤ text.length := by
  induction h with
  | last h =>
      obtain ⟨⟩ := h
      simp only [List.length_append, List.length_cons, List.length_nil]
      omega
  | more _ _ ih =>
      simp only [List.length_append, List.length_cons]
      omega

/-- An object as a text, with the names of its members and the texts of their values. -/
inductive ObjectText : List Char → List (String × List Char) → Prop
  | empty {before gap after : List Char} (hbefore : IsGap before) (hgap : IsGap gap)
      (hafter : IsGap after) : ObjectText (before ++ '\x7b' :: (gap ++ '\x7d' :: after)) []
  | members {before text after : List Char} {ms : List (String × List Char)}
      (hbefore : IsGap before) (h : MembersText text ms) (hafter : IsGap after) :
      ObjectText (before ++ '\x7b' :: (text ++ '\x7d' :: after)) ms

/-- Whether a reader reads a text as a value, behind any gap and before any end of a number. -/
def ReadsAs {α : Type} (read : Reader α) (text : List Char) (value : α) : Prop :=
  ∀ gap rest, IsGap gap → EndsNumber rest →
    read (gap ++ (text ++ rest)) = .ok (value, rest)

/-! ## Texts of values -/

/-- A string as a text, with what it spells. -/
def IsLiteral (text : List Char) (s : String) : Prop :=
  ∃ body, text = '"' :: (body ++ ['"']) ∧ Spells body s.toList

def IsNatural (text : List Char) (n : Nat) : Prop := text = decimal n

inductive IsFlag : List Char → Bool → Prop
  | yes : IsFlag ['t', 'r', 'u', 'e'] true
  | no : IsFlag ['f', 'a', 'l', 's', 'e'] false

theorem readsAs_parsed {α : Type} {expected : String} {parse : String → Except String α}
    {text : List Char} {s : String} {value : α} (htext : IsLiteral text s)
    (hparse : parse s = .ok value) : ReadsAs (readParsed expected parse) text value := by
  obtain ⟨body, rfl, hbody⟩ := htext
  intro gap rest hgap _
  have hquoted : '"' :: (body ++ ['"']) ++ rest = '"' :: (body ++ '"' :: rest) := by simp
  rw [readParsed, readText, hquoted, skipSpace_append_cons hgap (by decide)]
  simp only [readString_of_spells hbody, bind, Except.bind, hparse]

/-- A reader that steps over a space in front of a value steps over any gap. -/
theorem Reads.readsAs {α : Type} {read : Reader α} {v : Json} {value : α} (h : Reads read v value)
    (hskip : ∀ text, read (skipSpace text) = read text) :
    ReadsAs read (prettyChars 0 v) value := by
  intro gap rest hgap hrest
  have hspace := h 0 rest hrest
  rw [← hskip, skipSpace_of_space (by decide)] at hspace
  rw [← hskip, skipSpace_append hgap]
  exact hspace

namespace Schema

/-! ## Members taken one after the other -/

variable {σ α : Type} {s : Schema σ α} {draft draft' : σ}

/-- What a draft becomes by a member with a name and a text as its value. -/
inductive Takes (s : Schema σ α) (draft : σ) (name : String) (text : List Char) : σ → Prop
  | field {field : Field σ} {draft' : σ} (hfield : s.fields.find? (·.name == name) = some field)
      (hset : field.isSet draft = false) (hread : ReadsAs (field.read draft) text draft') :
      Takes s draft name text draft'
  | other (hfield : s.fields.find? (·.name == name) = none) (h : WellFormed .value text) :
      Takes s draft name text draft

inductive TakesAll (s : Schema σ α) : σ → List (String × List Char) → σ → Prop
  | nil (draft : σ) : TakesAll s draft [] draft
  | cons {draft draft₁ draft' : σ} {name : String} {text : List Char}
      {ms : List (String × List Char)} (h : s.Takes draft name text draft₁)
      (hrest : TakesAll s draft₁ ms draft') : TakesAll s draft ((name, text) :: ms) draft'

theorem readMember_of_takes {body gap gap' text after rest : List Char} {name : String} {c : Char}
    (hname : Spells body name.toList) (hgap : IsGap gap) (hgap' : IsGap gap')
    (hafter : IsGap after) (hc : IsCloser c) (h : s.Takes draft name text draft') :
    s.readMember draft (body ++ '"' :: (gap ++ ':' :: (gap' ++ (text ++ (after ++ c :: rest))))) =
      .ok (draft', after ++ c :: rest) := by
  have hends := endsNumber_of_closer hafter hc rest
  have hcolon : readColon (gap ++ ':' :: (gap' ++ (text ++ (after ++ c :: rest)))) =
      .ok (gap' ++ (text ++ (after ++ c :: rest))) := by
    rw [readColon, skipSpace_append_cons hgap (by decide)]
    rfl
  rw [readMember, readString_of_spells hname]
  cases h with
  | field hfield hset hread =>
      simp only [bind, Except.bind, hfield, hset, Bool.false_eq_true, if_false, hcolon]
      exact hread _ _ hgap' hends
  | other hfield hvalue =>
      simp only [bind, Except.bind, hfield, hcolon, skipValue_of_wellFormed hgap' hvalue hends]

/-- A member is read from its opening quote on, up to the gap behind it. -/
theorem exists_readMember {text value : List Char} {name : String} (h : MemberText text name value)
    (htakes : s.Takes draft name value draft') {c : Char} (hc : IsCloser c) (rest : List Char) :
    ∃ inner gap, skipSpace (text ++ c :: rest) = '"' :: inner ∧ IsGap gap ∧
      s.readMember draft inner = .ok (draft', gap ++ c :: rest) := by
  obtain ⟨hbefore, hname, hgap, hgap', hafter⟩ := h
  refine ⟨_, _, ?_, hafter, readMember_of_takes hname hgap hgap' hafter hc htakes⟩
  simp only [List.append_assoc, List.cons_append]
  exact skipSpace_append_cons hbefore (by decide) _

theorem readMembersAux_brace {gap : List Char} (hgap : IsGap gap) (fuel : Nat) (draft : σ)
    (rest : List Char) :
    s.readMembersAux (fuel + 1) draft (gap ++ '\x7d' :: rest) = .ok (draft, rest) := by
  rw [readMembersAux, skipSpace_append_cons hgap (by decide)]
  rfl

theorem readMembersAux_comma {gap text inner : List Char} (hgap : IsGap gap)
    (htext : skipSpace text = '"' :: inner) (fuel : Nat) (draft : σ) :
    s.readMembersAux (fuel + 1) draft (gap ++ ',' :: text) =
      (s.readMember draft inner).bind fun read => s.readMembersAux fuel read.1 read.2 := by
  have hnext : readNextName text = .ok inner := by
    rw [readNextName, htext]
    rfl
  rw [readMembersAux, skipSpace_append_cons hgap (by decide)]
  simp only [hnext]
  rfl

/-- The first member is read, and then the others up to the closing brace. -/
theorem exists_readMembersAux {text : List Char} {ms : List (String × List Char)}
    (h : MembersText text ms) (hall : s.TakesAll draft ms draft') (rest : List Char) :
    ∃ inner draft₁ rest₁, skipSpace (text ++ '\x7d' :: rest) = '"' :: inner ∧
      s.readMember draft inner = .ok (draft₁, rest₁) ∧ ms.length ≤ rest₁.length ∧
      ∀ fuel, ms.length ≤ fuel → s.readMembersAux fuel draft₁ rest₁ = .ok (draft', rest) := by
  induction h generalizing draft with
  | last h =>
      obtain _ | ⟨htakes, ⟨⟩⟩ := hall
      obtain ⟨inner, gap, hskip, hgap, hread⟩ :=
        exists_readMember h htakes (c := '\x7d') (.inr (.inr rfl)) rest
      refine ⟨inner, _, _, hskip, hread, ?_, fun fuel hfuel => ?_⟩
      · simp only [List.length_append, List.length_cons, List.length_nil]
        omega
      · obtain ⟨k, rfl⟩ := Nat.exists_eq_add_one_of_ne_zero (Nat.ne_zero_of_lt hfuel)
        exact readMembersAux_brace hgap k _ rest
  | @more text value more name ms h hrest ih =>
      have hcount := hrest.length_le
      obtain _ | ⟨htakes, hmore⟩ := hall
      obtain ⟨inner', draft₂, rest₂, hskip', hread', hlength, haux⟩ := ih hmore
      obtain ⟨inner, gap, hskip, hgap, hread⟩ :=
        exists_readMember h htakes (c := ',') (.inl rfl) (more ++ '\x7d' :: rest)
      rw [List.append_assoc, List.cons_append]
      refine ⟨inner, _, _, hskip, hread, ?_, fun fuel hfuel => ?_⟩
      · simp only [List.length_append, List.length_cons]
        omega
      · obtain ⟨k, rfl⟩ := Nat.exists_eq_add_one_of_ne_zero (Nat.ne_zero_of_lt hfuel)
        rw [readMembersAux_comma hgap hskip', hread']
        exact haux k (Nat.le_of_succ_le_succ hfuel)

theorem readMembers_of_takesAll {text rest : List Char} {ms : List (String × List Char)}
    (h : MembersText text ms) (hall : s.TakesAll s.blank ms draft) :
    s.readMembers (text ++ '\x7d' :: rest) = .ok (draft, rest) := by
  obtain ⟨inner, draft₁, rest₁, hskip, hread, hlength, haux⟩ := exists_readMembersAux h hall rest
  rw [readMembers, hskip]
  simp only
  rw [if_neg (by decide), if_pos trivial]
  simp only [bind, Except.bind, hread]
  exact haux _ hlength

/-- An object is read as the record of the draft that its members make. -/
theorem ofString_of_takesAll {text : String} {ms : List (String × List Char)} {record : α}
    (h : ObjectText text.toList ms) (hall : s.TakesAll s.blank ms draft)
    (hfinish : s.finish draft = .ok record) : s.ofString text = .ok record := by
  obtain ⟨before, inner, after, hbefore, hafter, htext, hread⟩ :
      ∃ before inner after, IsGap before ∧ IsGap after ∧
        text.toList = before ++ '\x7b' :: inner ∧ s.readMembers inner = .ok (draft, after) := by
    generalize text.toList = chars at h ⊢
    cases h with
    | empty hbefore hgap hafter =>
        cases hall
        refine ⟨_, _, _, hbefore, hafter, rfl, ?_⟩
        rw [readMembers, skipSpace_append_cons hgap (by decide)]
        rfl
    | members hbefore h hafter =>
        exact ⟨_, _, _, hbefore, hafter, rfl, readMembers_of_takesAll h hall⟩
  have hend : skipSpace after = [] := by
    rw [← List.append_nil after, skipSpace_append hafter]
    rfl
  rw [ofString, read, htext, skipSpace_append_cons hbefore (by decide)]
  simp only [bind, Except.bind]
  rw [if_pos trivial, hread]
  simp [hfinish, hend]

end Schema

/-! ## Fields that are given or not -/

/-- What the members of an object say of a name: nothing, or once a value. -/
def Gives {β : Type} (ms : List (String × List Char)) (name : String)
    (Says : List Char → β → Prop) : Option β → Prop
  | none => ms.filter (·.1 == name) = []
  | some value => ∃ text, ms.filter (·.1 == name) = [(name, text)] ∧ Says text value

/-- A field kept in one optional part of a draft, with the texts that its reader reads. -/
structure Slot (σ : Type) where
  {Value : Type}
  name : String
  get : σ → Option Value
  set : Value → σ → σ
  read : Reader Value
  Says : List Char → Value → Prop
  reads : ∀ {text value}, Says text value → ReadsAs read text value

def Slot.field {σ : Type} (x : Slot σ) : Field σ := .of x.name x.get x.set x.read

/-- Whether slots are the parts of a draft: each is changed apart from all others, and nothing
else makes a difference. -/
structure IsRecord {σ : Type} (slots : List (Slot σ)) (blank : σ) : Prop where
  nodup : (slots.map (·.name)).Nodup
  get_blank : ∀ x ∈ slots, x.get blank = none
  get_set : ∀ x ∈ slots, ∀ value draft, x.get (x.set value draft) = some value
  get_set_of_ne : ∀ x ∈ slots, ∀ y ∈ slots, y.name ≠ x.name →
    ∀ value draft, y.get (x.set value draft) = y.get draft
  ext : ∀ draft draft', (∀ x ∈ slots, x.get draft = x.get draft') → draft = draft'

namespace IsRecord

variable {σ α : Type} {slots : List (Slot σ)} {blank draft final : σ} {x : Slot σ}

theorem eq_of_name (hs : IsRecord slots blank) {x y : Slot σ} (hx : x ∈ slots) (hy : y ∈ slots)
    (hname : y.name = x.name) : y = x := List.inj_on_of_nodup_map hs.nodup hy hx hname

theorem find?_field (hs : IsRecord slots blank) (hx : x ∈ slots) :
    (slots.map Slot.field).find? (·.name == x.name) = some x.field := by
  have hfind : slots.find? (·.name == x.name) = some x := by
    have hsome : (slots.find? (·.name == x.name)).isSome :=
      List.find?_isSome.2 ⟨x, hx, beq_self_eq_true x.name⟩
    obtain ⟨y, hy⟩ := Option.isSome_iff_exists.1 hsome
    have hname : y.name = x.name := eq_of_beq (List.find?_some hy :)
    rw [hy, hs.eq_of_name hx (List.mem_of_find?_eq_some hy) hname]
  rw [List.find?_map]
  exact Option.map_eq_some_iff.2 ⟨x, hfind, rfl⟩

theorem find?_field_eq_none {name : String} (hname : name ∉ slots.map (·.name)) :
    (slots.map Slot.field).find? (·.name == name) = none := by
  refine List.find?_eq_none.2 fun field hfield => ?_
  obtain ⟨x, hx, rfl⟩ := List.mem_map.1 hfield
  exact fun h => hname (List.mem_map.2 ⟨x, hx, eq_of_beq h⟩)

/-- What a slot waits for: it is as it is to be and is named no more, or it is empty and is
given its value once. -/
def Awaits (x : Slot σ) (ms : List (String × List Char)) (draft final : σ) : Prop :=
  (ms.filter (·.1 == x.name) = [] ∧ x.get draft = x.get final) ∨
    ∃ text value, ms.filter (·.1 == x.name) = [(x.name, text)] ∧ x.Says text value ∧
      x.get draft = none ∧ x.get final = some value

section Member

variable {name : String} {text : List Char} {ms : List (String × List Char)}

theorem filter_cons_of_ne (hne : x.name ≠ name) :
    ((name, text) :: ms).filter (·.1 == x.name) = ms.filter (·.1 == x.name) :=
  List.filter_cons_of_neg fun h => hne (eq_of_beq h).symm

/-- A member of another name leaves a slot waiting for the rest. -/
theorem Awaits.of_ne {draft₁ : σ} (h : Awaits x ((name, text) :: ms) draft final)
    (hne : x.name ≠ name) (hsame : x.get draft₁ = x.get draft) : Awaits x ms draft₁ final := by
  rw [Awaits, filter_cons_of_ne hne] at h
  rwa [Awaits, hsame]

/-- A member of its own name is all that a slot waits for. -/
theorem Awaits.of_eq (h : Awaits x ((x.name, text) :: ms) draft final) :
    ms.filter (·.1 == x.name) = [] ∧ x.get draft = none ∧
      ∃ value, x.Says text value ∧ x.get final = some value := by
  have hfilter : ((x.name, text) :: ms).filter (·.1 == x.name) =
      (x.name, text) :: ms.filter (·.1 == x.name) :=
    List.filter_cons_of_pos (beq_self_eq_true x.name)
  rw [Awaits, hfilter] at h
  rcases h with ⟨hnil, _⟩ | ⟨text', value, hone, hvalue, hempty, hfinal⟩
  · cases hnil
  · obtain ⟨hmember, hrest⟩ := List.cons.inj hone
    cases hmember
    exact ⟨hrest, hempty, value, hvalue, hfinal⟩

end Member

variable {s : Schema σ α} {ms : List (String × List Char)}

/-- In whatever order the members come, each slot gets what it waits for. -/
theorem takesAll_of_awaits (hs : IsRecord slots blank) (hfields : s.fields = slots.map Slot.field)
    (hother : ∀ m ∈ ms, m.1 ∉ slots.map (·.name) → WellFormed .value m.2)
    (hawaits : ∀ x ∈ slots, Awaits x ms draft final) : s.TakesAll draft ms final := by
  induction ms generalizing draft with
  | nil =>
      have hdone : draft = final := by
        refine hs.ext _ _ fun x hx => ?_
        rcases hawaits x hx with ⟨_, hsame⟩ | ⟨text, value, hone, _⟩
        · exact hsame
        · cases hone
      exact hdone ▸ .nil draft
  | cons m ms ih =>
      obtain ⟨name, text⟩ := m
      have hlater : ∀ m ∈ ms, m.1 ∉ slots.map (·.name) → WellFormed .value m.2 :=
        fun m hm => hother m (List.mem_cons_of_mem _ hm)
      by_cases hname : name ∈ slots.map (·.name)
      · obtain ⟨x, hx, rfl⟩ := List.mem_map.1 hname
        obtain ⟨hrest, hempty, value, hvalue, hfinal⟩ := (hawaits x hx).of_eq
        have hfield : s.fields.find? (·.name == x.name) = some x.field :=
          hfields ▸ hs.find?_field hx
        have htakes : s.Takes draft x.name text (x.set value draft) := by
          refine .field hfield ?_ ?_
          · exact Option.isSome_eq_false_iff.2 (Option.isNone_iff_eq_none.2 hempty)
          · intro gap rest hgap hends
            simp only [Slot.field, Field.of, x.reads hvalue gap rest hgap hends, bind, Except.bind]
        refine .cons htakes (ih hlater fun y hy => ?_)
        by_cases hy' : y.name = x.name
        · rw [hs.eq_of_name hx hy hy']
          exact .inl ⟨hrest, by rw [hs.get_set x hx, hfinal]⟩
        · exact (hawaits y hy).of_ne hy' (hs.get_set_of_ne x hx y hy hy' value draft)
      · have htakes : s.Takes draft name text draft :=
          .other (hfields ▸ find?_field_eq_none hname) (hother _ List.mem_cons_self hname)
        refine .cons htakes (ih hlater fun y hy => ?_)
        refine (hawaits y hy).of_ne (fun heq => hname ?_) rfl
        exact List.mem_map.2 ⟨y, hy, heq⟩

/-- Members make the draft that they give, starting from a blank one. -/
theorem takesAll_of_gives (hs : IsRecord slots blank) (hfields : s.fields = slots.map Slot.field)
    (hother : ∀ m ∈ ms, m.1 ∉ slots.map (·.name) → WellFormed .value m.2)
    (hgives : ∀ x ∈ slots, Gives ms x.name x.Says (x.get final)) : s.TakesAll blank ms final := by
  refine hs.takesAll_of_awaits hfields hother fun x hx => ?_
  have hblank := hs.get_blank x hx
  have hvalue := hgives x hx
  cases hfinal : x.get final with
  | none =>
      rw [hfinal] at hvalue
      exact .inl ⟨hvalue, hblank.trans hfinal.symm⟩
  | some value =>
      rw [hfinal] at hvalue
      obtain ⟨text, hone, htext⟩ := hvalue
      exact .inr ⟨text, value, hone, htext, hblank, hfinal⟩

end IsRecord

end Rendezvous.Json
