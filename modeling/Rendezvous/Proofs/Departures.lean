import Rendezvous.Proofs.Histories
import Rendezvous.Proofs.Silence

/-!
# Participants that have departed

A participant that takes part in its domain no more says nothing more: what is still heard of
it was on its way before. Main statement: nothing is delivered to it or called for it ever
again, and its listener stays as it is.
-/

namespace Rendezvous

section Speaking

variable {f f' : Fabric} {s s' : Site} {log entries : List Happening} {speaker hearer : Handle}

/-- Nothing is put on its way from a participant that takes no part; what is there goes off at the
front. -/
theorem Fabric.Does.between_suffix (hd : f.Does entries f') (hissued : f.Issued speaker)
    (hgone : f.isEnabled speaker = false) :
    f'.between speaker hearer <:+ f.between speaker hearer := by
  have habsent := presence?_eq_none_iff.2 hgone
  cases hd with
  | nothing => exact List.suffix_rfl
  | configure => exact List.suffix_rfl
  | take hn =>
      rw [between_of_next? hn]
      exact List.suffix_append _ _
  | join domain profile listens =>
      rw [between_join_of_not]
      · intro x _ hx
        rw [habsent] at hx
        cases hx
      · intro y hself
        rw [hself] at hissued
        exact absurd hissued f.not_issued_nextHandle
  | @perform _ k deed hp =>
      obtain ⟨m, after, ns, hm, _, rfl, _⟩ := hp.change
      by_cases hk : k = speaker
      · subst hk
        have hmen : ¬ m.enabled = true := by
          intro hmen
          have hen : f.isEnabled k = true := isEnabled_iff.2 ⟨m, hm, hmen⟩
          rw [hgone] at hen
          cases hen
        rw [between_change, if_neg fun hboth => hmen hboth.1, List.append_nil]
      · rw [between_change_of_ne hk]

namespace Site

/-- Who takes no part is not heard of any more but by what was on its way already. -/
theorem Move.words_subset (h : Move s s') (hissued : s.fabric.Issued speaker)
    (hgone : s.fabric.isEnabled speaker = false) (hearer : Handle) :
    s'.heard speaker hearer ++ s'.fabric.between speaker hearer ⊆
      s.heard speaker hearer ++ s.fabric.between speaker hearer := by
  obtain ⟨entries, hdoes⟩ := h.does
  have hbetween : s'.fabric.between speaker hearer ⊆ s.fabric.between speaker hearer :=
    (hdoes.between_suffix hissued hgone).subset
  have hkept (hsame : s'.deliveries = s.deliveries) :
      s'.heard speaker hearer ++ s'.fabric.between speaker hearer ⊆
        s.heard speaker hearer ++ s.fabric.between speaker hearer := by
    rw [heard, hsame]
    exact List.append_subset.2 ⟨List.subset_append_left _ _,
      List.Subset.trans hbetween (List.subset_append_right _ _)⟩
  cases h.carries with
  | sends _ hsame => exact hkept hsame
  | makes hn _ hmade =>
      rw [heard, hmade, wordsBetween_append, List.append_assoc, ← Fabric.between_of_next? hn,
        heard]
      exact List.Subset.refl _
  | loses _ _ hsame => exact hkept hsame

theorem Moves.words_subset (h : Moves s s') (hissued : s.fabric.Issued speaker)
    (hgone : s.fabric.isEnabled speaker = false) (hearer : Handle) :
    s'.heard speaker hearer ++ s'.fabric.between speaker hearer ⊆
      s.heard speaker hearer ++ s.fabric.between speaker hearer := by
  induction h with
  | refl => exact List.Subset.refl _
  | tail hrow hmove ih =>
      have hlater := Moves.isLater hrow
      have hlast := hmove.words_subset (hlater.issued hissued)
        (hlater.isEnabled_eq_false hissued hgone) hearer
      exact List.Subset.trans hlast ih

def received (s : Site) (k : Handle) : List Delivery := s.deliveries.filter (·.target == k)

theorem received_of_same (hsame : s'.deliveries = s.deliveries) (k : Handle) :
    s'.received k = s.received k := by
  rw [received, hsame, received]

theorem received_of_made {d : Delivery} (hmade : s'.deliveries = s.deliveries ++ [d]) :
    s'.received d.target = s.received d.target ++ [d] := by
  rw [received, hmade, List.filter_append, List.filter_cons_of_pos (by simp), List.filter_nil,
    received]

theorem received_of_made_of_ne {d : Delivery} (hmade : s'.deliveries = s.deliveries ++ [d])
    {k : Handle} (hne : d.target ≠ k) : s'.received k = s.received k := by
  rw [received, hmade, List.filter_append, List.filter_cons_of_neg (by simpa using hne),
    List.filter_nil, List.append_nil, received]

/-- Nothing is delivered to a participant that takes no part. -/
theorem Moves.received_eq (h : Moves s s') {k : Handle} (hissued : s.fabric.Issued k)
    (hgone : s.fabric.isEnabled k = false) : s'.received k = s.received k := by
  induction h with
  | refl => rfl
  | tail hrow hmove ih =>
      rw [← ih]
      cases hmove.carries with
      | sends _ hsame => exact received_of_same hsame k
      | loses _ _ hsame => exact received_of_same hsame k
      | @makes d _ hen hmade =>
          refine received_of_made_of_ne hmade fun htarget => ?_
          rw [htarget, (Moves.isLater hrow).isEnabled_eq_false hissued hgone] at hen
          cases hen

/-- Whoever hears or is to hear of a participant that has departed hears of the departure. -/
theorem Chronicled.hears_departure (h : s.Chronicled log) (hne : speaker ≠ hearer)
    (hgone : s.fabric.isEnabled speaker = false) (hen : s.fabric.isEnabled hearer = true)
    (htold : s.heard speaker hearer ++ s.fabric.between speaker hearer ≠ []) :
    ∃ profile, ⟨.removed, .participant speaker profile⟩ ∈
      s.heard speaker hearer ++ s.fabric.between speaker hearer := by
  have hwhole := (h.recounts hne).complete hen
  have hmet : (meeting? speaker hearer log).isSome = true := by
    cases hn : meeting? speaker hearer log with
    | some n => rfl
    | none =>
        rw [history_of_none hn] at hwhole
        exact absurd hwhole htold
  rw [hwhole]
  exact tellOf_removed_mem_history hmet (h.follows.absent hgone)

/-- Who joins after a departure hears nothing of it, and is to hear nothing. -/
theorem Chronicled.words_eq_nil_of_newcomer (h : s.Chronicled log) (hrow : Moves s s')
    (hissued : s.fabric.Issued speaker) (hgone : s.fabric.isEnabled speaker = false)
    (hnew : ¬ s.fabric.Issued hearer) :
    s'.heard speaker hearer ++ s'.fabric.between speaker hearer = [] := by
  have hne : speaker ≠ hearer := fun heq => hnew (heq ▸ hissued)
  obtain ⟨hheard, hbetween, _⟩ := h.nothing_of_not_issued hne hnew
  have hsubset := hrow.words_subset hissued hgone hearer
  rw [hheard, hbetween] at hsubset
  exact List.subset_nil.1 hsubset

end Site

end Speaking

namespace Deployment

/-- Whether nothing becomes of a participant any more: it takes no part, nothing is delivered to it
or called for it, and its listener, with graph and counters, stays as it is. -/
def Retired (d : Deployment) (k : Handle) : Prop :=
  ∀ d', Run d d' → d'.site.fabric.isEnabled k = false ∧
    d'.site.received k = d.site.received k ∧ d'.site.callsFor k = d.site.callsFor k ∧
    d'.site.listeners.find? k = d.site.listeners.find? k

theorem retired_of_isEnabled_eq_false {d : Deployment} {k : Handle}
    (hissued : d.site.fabric.Issued k) (hgone : d.site.fabric.isEnabled k = false) :
    d.Retired k := by
  intro d' hrun
  have hmoves := Run.moves hrun
  exact ⟨hmoves.isLater.isEnabled_eq_false hissued hgone, hmoves.received_eq hissued hgone,
    hmoves.callsFor_eq hissued hgone, (Run.paces hrun).find?_listeners hissued hgone⟩

end Deployment

end Rendezvous
