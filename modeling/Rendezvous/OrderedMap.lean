/-!
# Maps in key order

A finite map kept as a list of entries with strictly increasing keys, so that its
entries come out in order and two maps that answer every look-up alike are equal. The
view is `find?`; the main statements say what each operation does to it.
-/

namespace Rendezvous

open Std

/-- Entries with strictly increasing keys. -/
structure OrderedMap (κ ν : Type) [Ord κ] where
  /-- The entries, the least key first. -/
  entries : List (κ × ν)
  ordered : entries.Pairwise (fun a b => compare a.1 b.1 = .lt)

namespace OrderedMap

variable {κ ν : Type} [Ord κ]

def empty : OrderedMap κ ν := ⟨[], .nil⟩

instance : EmptyCollection (OrderedMap κ ν) := ⟨empty⟩

instance : Inhabited (OrderedMap κ ν) := ⟨empty⟩

def lookup (k : κ) : List (κ × ν) → Option ν
  | [] => none
  | (k', v) :: rest => if compare k k' = .eq then some v else lookup k rest

def find? (m : OrderedMap κ ν) (k : κ) : Option ν :=
  lookup k m.entries

def contains (m : OrderedMap κ ν) (k : κ) : Bool :=
  (m.find? k).isSome

def keys (m : OrderedMap κ ν) : List κ :=
  m.entries.map (·.1)

def values (m : OrderedMap κ ν) : List ν :=
  m.entries.map (·.2)

def size (m : OrderedMap κ ν) : Nat :=
  m.entries.length

def isEmpty (m : OrderedMap κ ν) : Bool :=
  m.entries.isEmpty

def filter (p : κ → Bool) (m : OrderedMap κ ν) : OrderedMap κ ν :=
  ⟨m.entries.filter (p ·.1), m.ordered.filter _⟩

/-- Replace what stands at a key, or its absence, by what `f` makes of it. -/
def alterEntries (k : κ) (f : Option ν → Option ν) : List (κ × ν) → List (κ × ν)
  | [] => (f none).toList.map (k, ·)
  | (k', v) :: rest =>
      match compare k k' with
      | .lt => (f none).toList.map (k, ·) ++ (k', v) :: rest
      | .eq => (f (some v)).toList.map (k', ·) ++ rest
      | .gt => (k', v) :: alterEntries k f rest

section Laws

variable [TransOrd κ] [LawfulEqOrd κ]

omit [TransOrd κ] in
theorem mem_alterEntries {k : κ} {f : Option ν → Option ν} {es : List (κ × ν)} {e : κ × ν}
    (h : e ∈ alterEntries k f es) : e.1 = k ∨ e ∈ es := by
  induction es with
  | nil =>
      simp only [alterEntries, List.mem_map] at h
      obtain ⟨v, _, rfl⟩ := h
      exact .inl rfl
  | cons e' rest ih =>
      obtain ⟨k', v⟩ := e'
      simp only [alterEntries] at h
      split at h
      · rcases List.mem_append.1 h with h | h
        · obtain ⟨v', _, rfl⟩ := List.mem_map.1 h
          exact .inl rfl
        · exact .inr h
      · rename_i hk
        rcases List.mem_append.1 h with h | h
        · obtain ⟨v', _, rfl⟩ := List.mem_map.1 h
          exact .inl (LawfulEqOrd.eq_of_compare hk).symm
        · exact .inr (List.mem_cons_of_mem _ h)
      · rcases List.mem_cons.1 h with rfl | h
        · exact .inr List.mem_cons_self
        · exact (ih h).imp id (List.mem_cons_of_mem _)

theorem pairwise_alterEntries (k : κ) (f : Option ν → Option ν) {es : List (κ × ν)}
    (h : es.Pairwise (fun a b => compare a.1 b.1 = .lt)) :
    (alterEntries k f es).Pairwise (fun a b => compare a.1 b.1 = .lt) := by
  induction es with
  | nil => cases hf : f none <;> simp [alterEntries, hf]
  | cons e' rest ih =>
      obtain ⟨k', v⟩ := e'
      obtain ⟨hhead, hrest⟩ := List.pairwise_cons.1 h
      simp only [alterEntries]
      split
      · rename_i hk
        cases hf : f none with
        | none => simpa using h
        | some v' =>
            simp only [Option.toList_some, List.map_cons, List.map_nil, List.singleton_append]
            refine List.pairwise_cons.2 ⟨fun e he => ?_, h⟩
            rcases List.mem_cons.1 he with rfl | he
            · exact hk
            · exact TransCmp.lt_trans hk (hhead e he)
      · cases hf : f (some v) with
        | none => simpa using hrest
        | some v' =>
            simp only [Option.toList_some, List.map_cons, List.map_nil, List.singleton_append]
            exact List.pairwise_cons.2 ⟨hhead, hrest⟩
      · rename_i hk
        refine List.pairwise_cons.2 ⟨fun e he => ?_, ih hrest⟩
        rcases mem_alterEntries he with heq | he
        · rw [heq]
          exact OrientedCmp.gt_iff_lt.1 hk
        · exact hhead e he

/-- Replace what stands at a key, or its absence, by what `f` makes of it. -/
def alter (m : OrderedMap κ ν) (k : κ) (f : Option ν → Option ν) : OrderedMap κ ν :=
  ⟨alterEntries k f m.entries, pairwise_alterEntries k f m.ordered⟩

omit [TransOrd κ] [LawfulEqOrd κ] in
theorem alterEntries_none_sublist (k : κ) (es : List (κ × ν)) :
    (alterEntries k (fun _ => none) es).Sublist es := by
  induction es with
  | nil => exact List.nil_sublist _
  | cons e rest ih =>
      rw [alterEntries]
      split
      · exact List.Sublist.refl _
      · exact List.sublist_cons_self _ _
      · exact ih.cons_cons _

/-- Where a value is taken away, the entries that are left are among those that were there. -/
theorem sublist_alter_none (m : OrderedMap κ ν) (k : κ) :
    (m.alter k fun _ => none).entries.Sublist m.entries :=
  alterEntries_none_sublist k m.entries

def insert (m : OrderedMap κ ν) (k : κ) (v : ν) : OrderedMap κ ν :=
  m.alter k fun _ => some v

def erase (m : OrderedMap κ ν) (k : κ) : OrderedMap κ ν :=
  m.alter k fun _ => none

def modify (m : OrderedMap κ ν) (k : κ) (f : ν → ν) : OrderedMap κ ν :=
  m.alter k (Option.map f)

/-! ## The view -/

omit [TransOrd κ] [LawfulEqOrd κ] in
@[simp] theorem find?_empty (k : κ) : (empty : OrderedMap κ ν).find? k = none := rfl

omit [TransOrd κ] [LawfulEqOrd κ] in
theorem lookup_eq_none_of_forall_lt {k : κ} {es : List (κ × ν)}
    (h : ∀ e ∈ es, compare k e.1 = .lt) : lookup k es = none := by
  induction es with
  | nil => rfl
  | cons e rest ih =>
      have hk := h e List.mem_cons_self
      have hrest := ih fun e he => h e (List.mem_cons_of_mem _ he)
      obtain ⟨k', v⟩ := e
      simp only at hk
      simp [lookup, hk, hrest]

theorem lookup_alterEntries [DecidableEq κ] (k k' : κ) (f : Option ν → Option ν) {es : List (κ × ν)}
    (h : es.Pairwise (fun a b => compare a.1 b.1 = .lt)) :
    lookup k' (alterEntries k f es) = if k' = k then f (lookup k es) else lookup k' es := by
  induction es with
  | nil =>
      cases hf : f none with
      | none => simp [alterEntries, lookup, hf]
      | some v => by_cases hk : k' = k <;> simp [alterEntries, lookup, hf, hk]
  | cons e rest ih =>
      obtain ⟨k₁, v⟩ := e
      obtain ⟨hhead, hrest⟩ := List.pairwise_cons.1 h
      simp only at hhead
      simp only [alterEntries]
      split
      · rename_i hlt
        have hnone : lookup k ((k₁, v) :: rest) = none :=
          lookup_eq_none_of_forall_lt fun e he => by
            rcases List.mem_cons.1 he with rfl | he
            · exact hlt
            · exact TransCmp.lt_trans hlt (hhead e he)
        rw [hnone]
        cases hf : f none with
        | none =>
            by_cases hk : k' = k
            · subst hk
              simpa using hnone
            · simp [hk]
        | some v' => by_cases hk : k' = k <;> simp [lookup, hk]
      · rename_i heq
        have heq' : k = k₁ := LawfulEqOrd.eq_of_compare heq
        subst heq'
        have hnone : lookup k rest = none := lookup_eq_none_of_forall_lt hhead
        cases hf : f (some v) with
        | none =>
            by_cases hk : k' = k
            · simp [lookup, hk, hf, hnone]
            · simp [lookup, hk]
        | some v' => by_cases hk : k' = k <;> simp [lookup, hk, hf]
      · rename_i hgt
        by_cases hk : k' = k
        · subst hk
          simp [lookup, hgt, ih hrest]
        · simp only [lookup, ih hrest, hk, if_false]

@[simp] theorem find?_alter [DecidableEq κ] (m : OrderedMap κ ν) (k k' : κ)
    (f : Option ν → Option ν) :
    (m.alter k f).find? k' = if k' = k then f (m.find? k) else m.find? k' :=
  lookup_alterEntries k k' f m.ordered

@[simp] theorem find?_insert [DecidableEq κ] (m : OrderedMap κ ν) (k k' : κ) (v : ν) :
    (m.insert k v).find? k' = if k' = k then some v else m.find? k' := by
  simp [insert]

@[simp] theorem find?_erase [DecidableEq κ] (m : OrderedMap κ ν) (k k' : κ) :
    (m.erase k).find? k' = if k' = k then none else m.find? k' := by
  simp [erase]

@[simp] theorem find?_modify [DecidableEq κ] (m : OrderedMap κ ν) (k k' : κ) (f : ν → ν) :
    (m.modify k f).find? k' = if k' = k then (m.find? k).map f else m.find? k' := by
  simp [modify]

omit [TransOrd κ] in
theorem lookup_eq_some_iff {k : κ} {v : ν} {es : List (κ × ν)}
    (h : es.Pairwise (fun a b => compare a.1 b.1 = .lt)) :
    lookup k es = some v ↔ (k, v) ∈ es := by
  induction es with
  | nil => simp [lookup]
  | cons e rest ih =>
      obtain ⟨k', v'⟩ := e
      obtain ⟨hhead, hrest⟩ := List.pairwise_cons.1 h
      simp only [lookup, List.mem_cons, Prod.mk.injEq]
      split
      · rename_i heq
        have heq' : k = k' := LawfulEqOrd.eq_of_compare heq
        subst heq'
        have hnot : (k, v) ∉ rest := fun hmem => by
          have hlt := hhead _ hmem
          simp at hlt
        simp [hnot, eq_comm]
      · rename_i hne
        have hne' : k ≠ k' := fun h => hne (by rw [h]; exact compare_self)
        simp [hne', ih hrest]

omit [TransOrd κ] in
theorem find?_eq_some_iff {m : OrderedMap κ ν} {k : κ} {v : ν} :
    m.find? k = some v ↔ (k, v) ∈ m.entries :=
  lookup_eq_some_iff m.ordered

omit [TransOrd κ] in
theorem nodup_keys (m : OrderedMap κ ν) : m.keys.Nodup := by
  refine List.pairwise_map.2 (m.ordered.imp ?_)
  intro a b hab heq
  rw [heq] at hab
  simp at hab

omit [LawfulEqOrd κ] in
theorem entries_eq_of_mem_iff {es es' : List (κ × ν)}
    (h : es.Pairwise (fun a b => compare a.1 b.1 = .lt))
    (h' : es'.Pairwise (fun a b => compare a.1 b.1 = .lt))
    (hmem : ∀ e, e ∈ es ↔ e ∈ es') : es = es' := by
  induction es generalizing es' with
  | nil =>
      cases es' with
      | nil => rfl
      | cons e rest => exact absurd ((hmem e).2 List.mem_cons_self) List.not_mem_nil
  | cons e rest ih =>
      cases es' with
      | nil => exact absurd ((hmem e).1 List.mem_cons_self) List.not_mem_nil
      | cons e' rest' =>
          obtain ⟨hhead, hrest⟩ := List.pairwise_cons.1 h
          obtain ⟨hhead', hrest'⟩ := List.pairwise_cons.1 h'
          have irrefl : ∀ a b : κ × ν, compare a.1 b.1 = .lt → compare b.1 a.1 = .lt → False :=
            fun a b hab hba => by
              have hsame : compare a.1 a.1 = .lt := TransCmp.lt_trans hab hba
              simp at hsame
          have heq : e = e' := by
            rcases List.mem_cons.1 ((hmem e).1 List.mem_cons_self) with h₁ | h₁
            · exact h₁
            · rcases List.mem_cons.1 ((hmem e').2 List.mem_cons_self) with h₂ | h₂
              · exact h₂.symm
              · exact (irrefl _ _ (hhead' e h₁) (hhead e' h₂)).elim
          subst heq
          have hself : ∀ b ∈ rest, b ≠ e := fun b hb hbe => by
            have hlt := hhead b hb
            rw [hbe] at hlt
            simp at hlt
          have hself' : ∀ b ∈ rest', b ≠ e := fun b hb hbe => by
            have hlt := hhead' b hb
            rw [hbe] at hlt
            simp at hlt
          congr 1
          refine ih hrest hrest' fun b => ⟨fun hb => ?_, fun hb => ?_⟩
          · exact ((List.mem_cons.1 ((hmem b).1 (List.mem_cons_of_mem _ hb))).resolve_left
              (hself b hb))
          · exact ((List.mem_cons.1 ((hmem b).2 (List.mem_cons_of_mem _ hb))).resolve_left
              (hself' b hb))

/-- Two maps that answer every look-up alike are equal. -/
theorem ext_find? {m m' : OrderedMap κ ν} (h : ∀ k, m.find? k = m'.find? k) : m = m' := by
  have hentries : m.entries = m'.entries :=
    entries_eq_of_mem_iff m.ordered m'.ordered fun e => by
      rw [← find?_eq_some_iff (k := e.1) (v := e.2), h, find?_eq_some_iff]
  cases m
  cases m'
  simp only at hentries
  subst hentries
  rfl

/-- What an alteration does depends on its value at the key alone. -/
theorem alter_congr [DecidableEq κ] {m : OrderedMap κ ν} {k : κ} {f g : Option ν → Option ν}
    (h : f (m.find? k) = g (m.find? k)) : m.alter k f = m.alter k g := by
  refine ext_find? fun k' => ?_
  rw [find?_alter, find?_alter, h]

/-- Altering a key to what it has already changes nothing. -/
theorem alter_of_eq [DecidableEq κ] {m : OrderedMap κ ν} {k : κ} {f : Option ν → Option ν}
    (h : f (m.find? k) = m.find? k) : m.alter k f = m := by
  refine ext_find? fun k' => ?_
  rw [find?_alter]
  split
  · rename_i heq
    rw [h, heq]
  · rfl

/-- Of two things put at one key, the latter stays. -/
theorem alter_alter_const [DecidableEq κ] (m : OrderedMap κ ν) (k : κ) (v v' : Option ν) :
    (m.alter k fun _ => v).alter k (fun _ => v') = m.alter k fun _ => v' := by
  refine ext_find? fun k' => ?_
  simp only [find?_alter]
  split <;> rfl

theorem alter_comm [DecidableEq κ] {k k' : κ} (hne : k ≠ k') (m : OrderedMap κ ν)
    (f g : Option ν → Option ν) : (m.alter k f).alter k' g = (m.alter k' g).alter k f := by
  refine ext_find? fun j => ?_
  simp only [find?_alter]
  by_cases hj : j = k
  · subst hj
    simp only [if_neg hne, if_true]
  · simp only [if_neg hj, if_neg hne.symm]

omit [TransOrd κ] [LawfulEqOrd κ] in
theorem find?_eq_none_of_not_contains {m : OrderedMap κ ν} {k : κ}
    (h : ¬ m.contains k = true) : m.find? k = none := by
  simpa [contains] using h

end Laws

end OrderedMap

end Rendezvous
