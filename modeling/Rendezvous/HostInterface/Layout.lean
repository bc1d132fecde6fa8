import Rendezvous.HostInterface.Data

/-!
# How C data lie in memory

The parts of a C structure follow each other in the order given, each at the next
multiple of its alignment; the structure ends at a multiple of the greatest alignment.
Main statement: every part lies at a multiple of its alignment, apart from the others and
inside the structure.
-/

namespace Rendezvous.HostInterface

/-- The size and the alignment of a C type, in bytes. -/
structure Shape where
  size : Nat
  align : Nat
  deriving DecidableEq, Repr

structure Part where
  name : String
  shape : Shape
  deriving DecidableEq, Repr

namespace Shape

def word (width : Nat) : Shape := ⟨width, width⟩

/-- Items of one shape in a row. -/
def row (item : Shape) (count : Nat) : Shape := ⟨item.size * count, item.align⟩

/-- The next multiple of an alignment. -/
def roundUp (n align : Nat) : Nat := (n + align - 1) / align * align

/-- Where each of the parts starts, from an offset on, and where the last one ends. -/
def offsetsFrom (start : Nat) : List Part → List (String × Nat) × Nat
  | [] => ([], start)
  | part :: parts =>
      let here := roundUp start part.shape.align
      let (offsets, stop) := offsetsFrom (here + part.shape.size) parts
      ((part.name, here) :: offsets, stop)

def offsets (parts : List Part) : List (String × Nat) := (offsetsFrom 0 parts).1

def ofParts (parts : List Part) : Shape :=
  let align := parts.foldl (fun a part => max a part.shape.align) 1
  ⟨roundUp (offsetsFrom 0 parts).2 align, align⟩

theorem dvd_roundUp (n align : Nat) : align ∣ roundUp n align := Nat.dvd_mul_left _ _

theorem le_roundUp {align : Nat} (h : 0 < align) (n : Nat) : n ≤ roundUp n align := by
  have hdiv := Nat.div_add_mod (n + align - 1) align
  have hmod := Nat.mod_lt (n + align - 1) h
  rw [roundUp, Nat.mul_comm]
  omega

theorem start_le_offsetsFrom {parts : List Part} (hpos : ∀ p ∈ parts, 0 < p.shape.align)
    (start : Nat) : start ≤ (offsetsFrom start parts).2 := by
  induction parts generalizing start with
  | nil => exact Nat.le_refl _
  | cons p parts ih =>
      have hround := le_roundUp (hpos p List.mem_cons_self) start
      have hrest := ih (fun q hq => hpos q (List.mem_cons_of_mem _ hq))
        (roundUp start p.shape.align + p.shape.size)
      simp only [offsetsFrom]
      omega

/-- Each part lies at a multiple of its alignment, after the parts before it and before the end. -/
theorem offsetsFrom_split {before after : List Part} {p : Part}
    (hpos : ∀ q ∈ before ++ p :: after, 0 < q.shape.align) (start : Nat) :
    ∃ here, (p.name, here) ∈ (offsetsFrom start (before ++ p :: after)).1 ∧
      p.shape.align ∣ here ∧ (offsetsFrom start before).2 ≤ here ∧
      here + p.shape.size ≤ (offsetsFrom start (before ++ p :: after)).2 := by
  induction before generalizing start with
  | nil =>
      have hlater := start_le_offsetsFrom (fun q hq => hpos q (List.mem_cons_of_mem _ hq))
        (roundUp start p.shape.align + p.shape.size)
      exact ⟨_, List.mem_cons_self, dvd_roundUp _ _, le_roundUp (hpos p List.mem_cons_self) _,
        hlater⟩
  | cons q before ih =>
      obtain ⟨here, hmem, hrest⟩ := ih (fun q' hq => hpos q' (List.mem_cons_of_mem _ hq))
        (roundUp start q.shape.align + q.shape.size)
      exact ⟨here, List.mem_cons_of_mem _ hmem, hrest⟩

end Shape

def endpointParts : List Part :=
  [⟨"transport", .word 4⟩, ⟨"address", .row (.word 1) 16⟩]

def participantParts : List Part :=
  [⟨"participant", .word 8⟩, ⟨"guid_prefix", .row (.word 1) GuidPrefix.length⟩,
    ⟨"endpoint", .ofParts endpointParts⟩]

def entityParts : List Part :=
  [⟨"topic_name", .row (.word 1) nameCapacity⟩, ⟨"type_name", .row (.word 1) nameCapacity⟩,
    ⟨"guid_prefix", .row (.word 1) GuidPrefix.length⟩, ⟨"endpoint", .ofParts endpointParts⟩]

example : Shape.ofParts endpointParts = ⟨20, 4⟩ := by decide

example : Shape.ofParts participantParts = ⟨40, 8⟩ := by decide

example : Shape.ofParts entityParts = ⟨544, 4⟩ := by decide

end Rendezvous.HostInterface
