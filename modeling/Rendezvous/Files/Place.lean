import Rendezvous.Files.Path

/-!
# Places in a file tree

Where a file or folder stands: the names that lead to it, from the working folder or from
the root on. A place keeps how deep it lies, and places are ordered by their depth first, so
that two places on one long way are told apart without going along it.
-/

namespace Rendezvous.Files

open Std

structure Place where
  fromRoot : Bool
  depth : Nat
  names : List Name
  depth_eq : depth = names.length
  deriving DecidableEq

namespace Place

def ofNames (fromRoot : Bool) (names : List Name) : Place := ⟨fromRoot, names.length, names, rfl⟩

def working : Place := ofNames false []

def root : Place := ofNames true []

instance : Inhabited Place := ⟨working⟩

/-- Places are ordered by where they start, then by their depth, then by their names. -/
def order : Place → Place → Ordering :=
  compareLex (compareOn Place.fromRoot) (compareLex (compareOn Place.depth) (compareOn Place.names))

instance : Ord Place := ⟨order⟩

instance : TransOrd Place :=
  inferInstanceAs (TransCmp (compareLex (compareOn Place.fromRoot)
    (compareLex (compareOn Place.depth) (compareOn Place.names))))

theorem ext_names {p q : Place} (hfrom : p.fromRoot = q.fromRoot) (hnames : p.names = q.names) :
    p = q := by
  obtain ⟨fromRoot, depth, names, hp⟩ := p
  obtain ⟨fromRoot', depth', names', hq⟩ := q
  simp only at hfrom hnames
  subst hfrom hnames hp hq
  rfl

instance : LawfulEqOrd Place where
  compare_self := ReflCmp.compare_self
  eq_of_compare {p q} h := by
    obtain ⟨hfrom, hrest⟩ := compareLex_eq_eq.1 h
    obtain ⟨_, hnames⟩ := compareLex_eq_eq.1 hrest
    exact ext_names (LawfulEqOrd.eq_of_compare hfrom) (LawfulEqOrd.eq_of_compare hnames)

def child (p : Place) (name : Name) : Place :=
  ⟨p.fromRoot, p.depth + 1, p.names ++ [name], by simp [p.depth_eq]⟩

/-- The place of the folder above; nothing is above the place that a way starts at. -/
def parent (p : Place) : Place := ofNames p.fromRoot p.names.dropLast

/-- Whether nothing has to exist for the place to be there. -/
def isStart (p : Place) : Bool := p.depth == 0

/-- Whether a place lies in a folder, at any depth. -/
def isInside (p folder : Place) : Bool :=
  p.fromRoot == folder.fromRoot && folder.depth < p.depth && folder.names.isPrefixOf p.names

@[simp] theorem parent_child (p : Place) (name : Name) : (p.child name).parent = p :=
  ext_names rfl List.dropLast_concat

theorem child_inj {p q : Place} {name name' : Name} :
    p.child name = q.child name' ↔ p = q ∧ name = name' := by
  constructor
  · intro h
    have hparent := congrArg parent h
    rw [parent_child, parent_child] at hparent
    subst hparent
    have hnames : p.names ++ [name] = p.names ++ [name'] := congrArg Place.names h
    exact ⟨rfl, by simpa using hnames⟩
  · rintro ⟨rfl, rfl⟩
    rfl

/-- Where a step leads that names no entry, seen from a folder. -/
def step? (p : Place) (step : Name) : Option Place :=
  if step = Path.here then some p
  else if step = Path.above then some p.parent
  else if step = Path.root then some root
  else none

end Place

end Rendezvous.Files
