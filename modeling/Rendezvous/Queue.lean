/-!
# Queues

A queue takes items in at one end and gives them out at the other. Items that came in
last are kept in reverse, so that both ends are at hand. The view is `toList`, the
oldest item first.
-/

namespace Rendezvous

/-- Items in the order in which they came. -/
structure Queue (α : Type) where
  /-- The oldest items, the first to leave in front. -/
  front : List α
  /-- The other items, the last to leave in front. -/
  back : List α

namespace Queue

variable {α : Type}

def empty : Queue α := ⟨[], []⟩

/-- The items, the first to leave in front. -/
def toList (q : Queue α) : List α := q.front ++ q.back.reverse

/-- Let items in, the first of them in front. -/
def pushAll (q : Queue α) (items : List α) : Queue α :=
  { q with back := items.reverseAux q.back }

/-- The item that leaves, and what stays. -/
def pop? (q : Queue α) : Option (α × Queue α) :=
  match q.front with
  | a :: front => some (a, { q with front })
  | [] =>
      match q.back.reverse with
      | a :: front => some (a, ⟨front, []⟩)
      | [] => none

def size (q : Queue α) : Nat := q.front.length + q.back.length

@[simp] theorem toList_pushAll (q : Queue α) (items : List α) :
    (q.pushAll items).toList = q.toList ++ items := by
  simp [pushAll, toList, List.reverseAux_eq]

theorem size_eq_length_toList (q : Queue α) : q.size = q.toList.length := by
  simp [size, toList]

theorem pop?_eq_none_iff {q : Queue α} : q.pop? = none ↔ q.toList = [] := by
  obtain ⟨front, back⟩ := q
  cases front with
  | nil =>
      simp only [pop?, toList, List.nil_append]
      cases back.reverse <;> simp
  | cons a front => simp [pop?, toList]

theorem toList_of_pop?_eq_some {q q' : Queue α} {a : α} (h : q.pop? = some (a, q')) :
    q.toList = a :: q'.toList := by
  obtain ⟨front, back⟩ := q
  cases front with
  | nil =>
      simp only [pop?] at h
      cases hb : back.reverse with
      | nil => simp [hb] at h
      | cons b rest =>
          simp only [hb, Option.some.injEq, Prod.mk.injEq] at h
          obtain ⟨rfl, rfl⟩ := h
          simp [toList, hb]
  | cons b front =>
      simp only [pop?, Option.some.injEq, Prod.mk.injEq] at h
      obtain ⟨rfl, rfl⟩ := h
      simp [toList]

theorem size_of_pop?_eq_some {q q' : Queue α} {a : α} (h : q.pop? = some (a, q')) :
    q.size = q'.size + 1 := by
  rw [size_eq_length_toList, size_eq_length_toList, toList_of_pop?_eq_some h, List.length_cons]

end Queue

end Rendezvous
