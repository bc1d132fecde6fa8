import Rendezvous.OrderedMap

/-!
# Sums over the values of a map

The sum of a measure over the values of a map, and how each operation moves it. Main
statement: altering a key moves the sum by what the measure says of the value before and
after.
-/

namespace Rendezvous.OrderedMap

open Std

variable {κ ν : Type} [Ord κ]

/-- The sum of a measure over a list of entries. -/
def totalEntries (f : ν → Nat) : List (κ × ν) → Nat
  | [] => 0
  | e :: rest => f e.2 + totalEntries f rest

/-- The sum of a measure over the values. -/
def total (f : ν → Nat) (m : OrderedMap κ ν) : Nat := totalEntries f m.entries

/-- The measure of a value, and zero for none. -/
def weigh (f : ν → Nat) (v : Option ν) : Nat := (v.map f).getD 0

/-- A measure that is nowhere greater has no greater sum. -/
theorem total_le_total {f g : ν → Nat} (h : ∀ v, f v ≤ g v) (m : OrderedMap κ ν) :
    m.total f ≤ m.total g := by
  simp only [total]
  induction m.entries with
  | nil => exact Nat.le_refl 0
  | cons e rest ih => exact Nat.add_le_add (h e.2) ih

variable [TransOrd κ] [LawfulEqOrd κ]

omit [LawfulEqOrd κ] in
theorem totalEntries_alterEntries (f : ν → Nat) (k : κ) (g : Option ν → Option ν)
    {es : List (κ × ν)} (h : es.Pairwise (fun a b => compare a.1 b.1 = .lt)) :
    totalEntries f (alterEntries k g es) + weigh f (lookup k es) =
      totalEntries f es + weigh f (g (lookup k es)) := by
  induction es with
  | nil => cases hg : g none <;> simp [alterEntries, lookup, hg, totalEntries, weigh]
  | cons e rest ih =>
      obtain ⟨k', v⟩ := e
      obtain ⟨hhead, hrest⟩ := List.pairwise_cons.1 h
      have ih := ih hrest
      simp only at hhead
      simp only [alterEntries]
      split
      · rename_i hlt
        have hnone : lookup k ((k', v) :: rest) = none :=
          lookup_eq_none_of_forall_lt fun e he => by
            rcases List.mem_cons.1 he with rfl | he
            · exact hlt
            · exact TransCmp.lt_trans hlt (hhead e he)
        rw [hnone]
        cases hg : g none
        · simp [totalEntries, weigh]
        · simp [totalEntries, weigh]
          omega
      · rename_i heq
        have hsome : lookup k ((k', v) :: rest) = some v := by simp [lookup, heq]
        rw [hsome]
        cases hg : g (some v)
        · simp [totalEntries, weigh]
          omega
        · simp [totalEntries, weigh]
          omega
      · rename_i hgt
        have hrec : lookup k ((k', v) :: rest) = lookup k rest := by simp [lookup, hgt]
        rw [hrec]
        simp only [totalEntries] at ih ⊢
        omega

theorem total_alter (f : ν → Nat) (m : OrderedMap κ ν) (k : κ) (g : Option ν → Option ν) :
    (m.alter k g).total f + weigh f (m.find? k) = m.total f + weigh f (g (m.find? k)) :=
  totalEntries_alterEntries f k g m.ordered

theorem total_insert (f : ν → Nat) (m : OrderedMap κ ν) (k : κ) (v : ν) :
    (m.insert k v).total f + weigh f (m.find? k) = m.total f + f v := by
  simpa [weigh, insert] using total_alter f m k fun _ => some v

theorem total_insert_le (f : ν → Nat) (m : OrderedMap κ ν) (k : κ) (v : ν) :
    (m.insert k v).total f ≤ m.total f + f v := by
  have h := total_insert f m k v
  omega

theorem total_erase (f : ν → Nat) (m : OrderedMap κ ν) (k : κ) :
    (m.erase k).total f + weigh f (m.find? k) = m.total f := by
  simpa [weigh, erase] using total_alter f m k fun _ => none

theorem total_modify (f : ν → Nat) (m : OrderedMap κ ν) (k : κ) (g : ν → ν)
    (hg : ∀ v, f (g v) = f v) : (m.modify k g).total f = m.total f := by
  have h := total_alter f m k (Option.map g)
  have hsame : weigh f ((m.find? k).map g) = weigh f (m.find? k) := by
    cases m.find? k <;> simp [weigh, hg]
  simp only [modify]
  omega

omit [TransOrd κ] [LawfulEqOrd κ] in
theorem size_eq_total (m : OrderedMap κ ν) : m.size = m.total fun _ => 1 := by
  simp only [size, total]
  induction m.entries with
  | nil => rfl
  | cons e rest ih =>
      simp only [List.length_cons, totalEntries, ih]
      omega

theorem size_erase_of_find?_eq_some {m : OrderedMap κ ν} {k : κ} {v : ν}
    (h : m.find? k = some v) : (m.erase k).size + 1 = m.size := by
  have ht := total_erase (fun _ => 1) m k
  simp only [h, weigh, Option.map_some, Option.getD_some] at ht
  rw [size_eq_total, size_eq_total]
  omega

end Rendezvous.OrderedMap
