import Rendezvous.Proofs.Deliveries

/-!
# Tidings

The tidings of a participant are what it has received and what is on its way to it, in the
order in which it hears of it. As long as it takes part they only grow at their end. Main
statement: if they tell of a participant that has departed, they tell of its departure before
they tell anything of those who join afterwards.
-/

namespace Rendezvous

theorem wordsBetween_addressed (speaker hearer : Handle) (ds : List Delivery) :
    wordsBetween speaker hearer (addressed hearer ds) = wordsBetween speaker hearer ds := by
  rw [wordsBetween, addressed, List.filter_filter, wordsBetween]
  congr 1
  refine List.filter_congr fun d _ => ?_
  cases d.target == hearer <;> simp

namespace Site

/-- What a participant has received, and then what is on its way to it. -/
def tidings (s : Site) (k : Handle) : List Delivery :=
  s.received k ++ addressed k s.fabric.queue.toList

/-- Whether word of a departure stands before all that a participant is told of a newcomer, and has
been received if anything of the newcomer has. -/
def TellsDepartureFirst (s : Site) (departed newcomer hearer : Handle) : Prop :=
  ∃ front back profile,
    s.tidings hearer =
      front ++ ⟨departed, hearer, ⟨.removed, .participant departed profile⟩⟩ :: back ∧
    wordsBetween newcomer hearer front = [] ∧
    (s.heard newcomer hearer ≠ [] →
      front ++ [⟨departed, hearer, ⟨.removed, .participant departed profile⟩⟩] <+:
        s.received hearer)

variable {s s' : Site} {log : List Happening} {posted : List Delivery}
  {speaker hearer newcomer k : Handle}

theorem wordsBetween_received (s : Site) (speaker hearer : Handle) :
    wordsBetween speaker hearer (s.received hearer) = s.heard speaker hearer :=
  wordsBetween_addressed _ _ _

theorem wordsBetween_tidings (s : Site) (speaker hearer : Handle) :
    wordsBetween speaker hearer (s.tidings hearer) =
      s.heard speaker hearer ++ s.fabric.between speaker hearer := by
  rw [tidings, wordsBetween_append, wordsBetween_received, wordsBetween_addressed,
    Fabric.between]

/-- Deliveries to who takes part are made in the order in which they were put on their way. -/
theorem HasPosted.tidings_grow (h : s.HasPosted posted) (hrow : Moves s s')
    (hwas : s.fabric.isEnabled k = true) (hen : s'.fabric.isEnabled k = true) :
    s.tidings k <+: s'.tidings k := by
  obtain ⟨more, h'⟩ := h.moves hrow
  rw [tidings, h.posts.complete k hwas, tidings, h'.posts.complete k hen, addressed_append]
  exact List.prefix_append _ _

theorem Chronicled.wordsBetween_tidings_of_not_issued (h : s.Chronicled log)
    (hnew : ¬ s.fabric.Issued newcomer) (hearer : Handle) :
    wordsBetween newcomer hearer (s.tidings hearer) = [] := by
  rw [wordsBetween_tidings, List.append_eq_nil_iff]
  constructor
  · apply wordsBetween_eq_nil
    intro d hd hsource _
    exact hnew (hsource ▸ (h.routes.made d hd).source)
  · apply wordsBetween_eq_nil
    intro d hd hsource _
    exact hnew (hsource ▸ (h.routes.queue d hd).source)

/-- What a participant has received ends before some tidings, or they are among it. -/
theorem received_of_tidings {front back : List Delivery} {d : Delivery}
    (h : s.tidings k = front ++ d :: back) :
    s.received k <+: front ∨ front ++ [d] <+: s.received k := by
  have hreceived : s.received k <+: s.tidings k := List.prefix_append _ _
  have hfront : front ++ [d] <+: s.tidings k := ⟨back, by rw [h, List.append_assoc]; rfl⟩
  rcases List.prefix_or_prefix_of_prefix hreceived hfront with hle | hle
  · rcases List.prefix_concat_iff.1 hle with heq | hshort
    · exact .inr (heq ▸ List.prefix_rfl)
    · exact .inl hshort
  · exact .inr hle

/-- Whoever takes part and is told anything of a participant that has departed is told of its
departure before anything of those who join afterwards. -/
theorem Chronicled.tells_departure_first (h : s.Chronicled log) (hposted : s.HasPosted posted)
    (hrow : Moves s s') (hissued : s.fabric.Issued speaker)
    (hgone : s.fabric.isEnabled speaker = false) (hen : s'.fabric.isEnabled hearer = true)
    (htold : wordsBetween speaker hearer (s'.tidings hearer) ≠ [])
    (hnew : ¬ s.fabric.Issued newcomer) :
    s'.TellsDepartureFirst speaker newcomer hearer := by
  rw [wordsBetween_tidings] at htold
  have hwas : s.fabric.isEnabled hearer = true := by
    by_cases hold : s.fabric.Issued hearer
    · exact hrow.isLater.isEnabled_before hold hen
    · exact absurd (h.words_eq_nil_of_newcomer hrow hissued hgone hold) htold
  have hne : speaker ≠ hearer := by
    rintro rfl
    rw [hgone] at hwas
    cases hwas
  -- The words of the departed one were all there already, the last of them among them.
  have htoldBefore : s.heard speaker hearer ++ s.fabric.between speaker hearer ≠ [] := by
    intro hnone
    have hsubset := hrow.words_subset hissued hgone hearer
    rw [hnone] at hsubset
    exact htold (List.subset_nil.1 hsubset)
  obtain ⟨profile, hmem⟩ := h.hears_departure hne hgone hwas htoldBefore
  rw [← wordsBetween_tidings, mem_wordsBetween] at hmem
  obtain ⟨front, rest, hsplit⟩ := List.append_of_mem hmem
  obtain ⟨more, hmore⟩ := hposted.tidings_grow hrow hwas hen
  have hnothing := h.wordsBetween_tidings_of_not_issued hnew hearer
  rw [hsplit, wordsBetween_append] at hnothing
  have hfront := (List.append_eq_nil_iff.1 hnothing).1
  have htidings : s'.tidings hearer = front ++
      ⟨speaker, hearer, ⟨.removed, .participant speaker profile⟩⟩ :: (rest ++ more) := by
    rw [← hmore, hsplit, List.append_assoc, List.cons_append]
  refine ⟨front, rest ++ more, profile, htidings, hfront, fun hheard => ?_⟩
  apply (received_of_tidings htidings).resolve_left
  rintro ⟨between, hbetween⟩
  rw [← hbetween, wordsBetween_append, wordsBetween_received] at hfront
  exact hheard (List.append_eq_nil_iff.1 hfront).1

end Site

end Rendezvous
