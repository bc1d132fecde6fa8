/-!
# Splitting at a separator

A text is cut at every occurrence of a separator; the parts hold no separator, and
joining them with it gives the text back.
-/

namespace Rendezvous.Text

/-- The parts of a text between the occurrences of `sep`; always at least one. -/
def splitOn (sep : Char) : List Char → List (List Char)
  | [] => [[]]
  | c :: rest =>
      if c = sep then [] :: splitOn sep rest
      else
        match splitOn sep rest with
        | [] => [[c]]
        | part :: parts => (c :: part) :: parts

/-- The parts in a row, with `sep` between neighbours. -/
def joinWith (sep : Char) : List (List Char) → List Char
  | [] => []
  | [part] => part
  | part :: parts => part ++ sep :: joinWith sep parts

theorem splitOn_ne_nil (sep : Char) (text : List Char) : splitOn sep text ≠ [] := by
  cases text with
  | nil => simp [splitOn]
  | cons c rest =>
      simp only [splitOn]
      split
      · simp
      · split <;> simp

theorem joinWith_cons_cons (sep c : Char) (part : List Char) (parts : List (List Char)) :
    joinWith sep ((c :: part) :: parts) = c :: joinWith sep (part :: parts) := by
  cases parts <;> simp [joinWith]

theorem joinWith_splitOn (sep : Char) (text : List Char) :
    joinWith sep (splitOn sep text) = text := by
  induction text with
  | nil => rfl
  | cons c rest ih =>
      by_cases hc : c = sep
      · simp only [splitOn, hc, if_true]
        cases hs : splitOn sep rest with
        | nil => exact absurd hs (splitOn_ne_nil sep rest)
        | cons part parts => rw [hs] at ih; simp [joinWith, ih]
      · simp only [splitOn, hc, if_false]
        cases hs : splitOn sep rest with
        | nil => exact absurd hs (splitOn_ne_nil sep rest)
        | cons part parts => rw [hs] at ih; simp [joinWith_cons_cons, ih]

theorem splitOn_append_sep {sep : Char} {part : List Char} (hpart : sep ∉ part)
    (rest : List Char) : splitOn sep (part ++ sep :: rest) = part :: splitOn sep rest := by
  induction part with
  | nil => simp [splitOn]
  | cons c part ih =>
      have hc : c ≠ sep := fun h => hpart (by simp [h])
      have ih' := ih (fun h => hpart (List.mem_cons_of_mem c h))
      simp [splitOn, hc, ih']

theorem splitOn_of_not_mem {sep : Char} {part : List Char} (hpart : sep ∉ part) :
    splitOn sep part = [part] := by
  induction part with
  | nil => rfl
  | cons c part ih =>
      have hc : c ≠ sep := fun h => hpart (by simp [h])
      have ih' := ih (fun h => hpart (List.mem_cons_of_mem c h))
      simp [splitOn, hc, ih']

end Rendezvous.Text
