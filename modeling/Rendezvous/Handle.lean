import Rendezvous.Text.Numeral

/-!
# Participant handles

A handle names one participant for ever: handles are issued in increasing order and none
is issued twice. Their numbers have no bound; a counter of 64 bits agrees with them until that
many participants have been created.
-/

namespace Rendezvous

open Std

/-- The name of a participant inside its fabric. -/
structure Handle where
  number : Nat
  deriving DecidableEq, Repr

namespace Handle

/-- Handles are ordered by the time they were issued. -/
instance : Ord Handle := ⟨compareOn Handle.number⟩

instance : TransOrd Handle := inferInstanceAs (TransCmp (compareOn Handle.number))

instance : LawfulEqOrd Handle where
  compare_self := ReflCmp.compare_self
  eq_of_compare {a b} h := by
    cases a
    cases b
    exact congrArg Handle.mk (LawfulEqOrd.eq_of_compare h)

/-- The handle that names no participant. -/
def null : Handle := ⟨0⟩

def next (h : Handle) : Handle := ⟨h.number + 1⟩

def display (h : Handle) : String := "participant#" ++ String.ofList (Text.decimal h.number)

end Handle

end Rendezvous
