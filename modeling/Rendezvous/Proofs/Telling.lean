import Rendezvous.Proofs.Mirroring
import Rendezvous.Proofs.Routing

/-!
# What is put on its way

Six operations put notifications on their way, each to the participants that it concerns.
Main statement: whatever a fabric does, what it puts on its way from one participant to
another one that takes part is what the chronicle adds to the history of the first one for
the second.
-/

namespace Rendezvous

namespace Fabric

def between (f : Fabric) (speaker hearer : Handle) : List Notification :=
  wordsBetween speaker hearer f.queue.toList

theorem between_of_queue_eq_nil {f : Fabric} (h : f.queue.toList = []) (speaker hearer : Handle) :
    f.between speaker hearer = [] := by
  rw [between, h]
  rfl

theorem between_of_next? {f f' : Fabric} {d : Delivery} (hn : f.next? = some (d, f'))
    (speaker hearer : Handle) :
    f.between speaker hearer = wordsBetween speaker hearer [d] ++ f'.between speaker hearer := by
  rw [between, (next?_eq_some hn).1, ← List.singleton_append, wordsBetween_append, between]

theorem wordsBetween_broadcast {targets : List Handle} (hnodup : targets.Nodup)
    (ns : List Notification) (k hearer : Handle) :
    wordsBetween k hearer (targets.flatMap fun target => ns.map fun n => ⟨k, target, n⟩) =
      if hearer ∈ targets then ns else [] := by
  rw [← filter_flatMap_target hnodup ns k hearer, wordsBetween]
  congr 1
  refine List.filter_congr fun d hd => ?_
  obtain ⟨target, _, hd⟩ := List.mem_flatMap.1 hd
  obtain ⟨n, _, rfl⟩ := List.mem_map.1 hd
  simp

theorem between_change (f : Fabric) (k : Handle) (m : Member) (after : Option Member)
    (ns : List Notification) (hearer : Handle) :
    (f.change k m after ns).between k hearer = f.between k hearer ++
      if m.enabled = true ∧ hearer ∈ (f.change k m after ns).audience m.domain k then ns
      else [] := by
  rw [between, queue_change, wordsBetween_append, between]
  cases m.enabled with
  | false => simp [wordsBetween]
  | true =>
      rw [if_pos rfl, wordsBetween_broadcast (nodup_audience _ _ _)]
      simp

theorem between_change_of_ne {k speaker : Handle} (hne : k ≠ speaker) (f : Fabric) (m : Member)
    (after : Option Member) (ns : List Notification) (hearer : Handle) :
    (f.change k m after ns).between speaker hearer = f.between speaker hearer := by
  have hnone : wordsBetween speaker hearer (if m.enabled = true then
      ((f.change k m after ns).audience m.domain k).flatMap fun target =>
        ns.map fun n => (⟨k, target, n⟩ : Delivery) else []) = [] := by
    refine wordsBetween_eq_nil fun d hd hsource _ => ?_
    split at hd
    · obtain ⟨target, _, hd⟩ := List.mem_flatMap.1 hd
      obtain ⟨n, _, rfl⟩ := List.mem_map.1 hd
      exact hne hsource
    · cases hd
  rw [between, queue_change, wordsBetween_append, hnone, List.append_nil, between]

/-! ## Who joins -/

theorem filter_fst_eq_singleton {es : List (Handle × Member)} (hnodup : (es.map (·.1)).Nodup)
    {k : Handle} {m : Member} (h : (k, m) ∈ es) : es.filter (·.1 == k) = [(k, m)] := by
  induction es with
  | nil => cases h
  | cons e es ih =>
      rw [List.map_cons] at hnodup
      obtain ⟨hhead, hrest⟩ := List.nodup_cons.1 hnodup
      rcases List.mem_cons.1 h with rfl | h
      · have hnone : es.filter (·.1 == k) = [] := by
          refine List.filter_eq_nil_iff.2 fun e he hk => hhead ?_
          exact List.mem_map.2 ⟨e, he, beq_iff_eq.1 hk⟩
        rw [List.filter_cons_of_pos (by simp), hnone]
      · have hne : e.1 ≠ k := by
          rintro rfl
          exact hhead (List.mem_map.2 ⟨_, h, rfl⟩)
        rw [List.filter_cons_of_neg (by simpa using hne), ih hrest h]

theorem wordsBetween_exchange_newcomer {es : List (Handle × Member)} {newcomer : Handle}
    (hne : ∀ e ∈ es, e.1 ≠ newcomer) {m : Member} (hlistens : m.listens = true)
    (speaker : Handle) :
    wordsBetween speaker newcomer (es.flatMap (exchange newcomer m)) =
      (es.filter (·.1 == speaker)).flatMap fun e => e.2.introduction e.1 := by
  induction es with
  | nil => rfl
  | cons e es ih =>
      have hhead := hne e List.mem_cons_self
      have hfirst : wordsBetween speaker newcomer (exchange newcomer m e) =
          if e.1 = speaker then e.2.introduction e.1 else [] := by
        by_cases hk : e.1 = speaker
        · subst hk
          cases he : e.2.listens <;>
            simp [wordsBetween, exchange, hlistens, he, hhead, Ne.symm hhead, List.filter_map,
              Function.comp_def]
        · cases he : e.2.listens <;>
            simp [wordsBetween, exchange, hlistens, he, hhead, hk, List.filter_map,
              Function.comp_def]
      rw [List.flatMap_cons, wordsBetween_append, hfirst,
        ih fun e' he' => hne e' (List.mem_cons_of_mem _ he')]
      by_cases hk : e.1 = speaker
      · rw [if_pos hk, List.filter_cons_of_pos (by simpa using hk), List.flatMap_cons]
      · rw [if_neg hk, List.filter_cons_of_neg (by simpa using hk), List.nil_append]

section Join

variable {f : Fabric} {domain : UInt32} {profile : Profile} {listens : Bool}

theorem Sound.ne_nextHandle (hf : f.Sound) {k : Handle} {m : Member}
    (hmem : (k, m) ∈ f.present domain) : k ≠ f.nextHandle := by
  rintro rfl
  exact f.not_issued_nextHandle (hf.member (mem_present.1 hmem).1)

/-- A newcomer that listens is introduced to who is there. -/
theorem between_join_newcomer (hf : f.Sound) {speaker : Handle} {x : Presence}
    (hx : f.presence? speaker = some x) :
    (f.join x.domain profile true).1.between speaker f.nextHandle =
      f.between speaker f.nextHandle ++ x.introduction speaker := by
  obtain ⟨m, hm, hen, rfl⟩ := presence?_eq_some_iff.1 hx
  have hmem : (speaker, m) ∈ f.present m.domain := mem_present.2 ⟨hm, hen, rfl⟩
  rw [between, queue_join, wordsBetween_append,
    wordsBetween_exchange_newcomer (fun e he => hf.ne_nextHandle he) rfl]
  show _ ++ (f.present m.domain |>.filter (·.1 == speaker)).flatMap _ = _
  rw [filter_fst_eq_singleton (f.nodup_present _) hmem]
  simp only [List.flatMap_cons, List.flatMap_nil, List.append_nil]
  rfl

/-- Who is there and listens discovers the newcomer. -/
theorem between_join_of_newcomer (hf : f.Sound) {hearer : Handle} {y : Presence}
    (hy : f.presence? hearer = some y) (hlistens : y.listens = true) :
    (f.join y.domain profile listens).1.between f.nextHandle hearer =
      f.between f.nextHandle hearer ++
        (⟨y.domain, profile, listens, []⟩ : Presence).introduction f.nextHandle := by
  obtain ⟨m, hm, hen, rfl⟩ := presence?_eq_some_iff.1 hy
  have hmem : (hearer, m) ∈ f.present m.domain := mem_present.2 ⟨hm, hen, rfl⟩
  have hne := hf.ne_nextHandle hmem
  have hthere : hearer ∈ ((f.present m.domain).filter (·.2.listens)).map (·.1) :=
    List.mem_map.2 ⟨(hearer, m), List.mem_filter.2 ⟨hmem, hlistens⟩, rfl⟩
  have hwords := filter_flatMap_exchange (f.nodup_present m.domain) hne
    (.new m.domain profile listens)
  rw [if_pos hthere] at hwords
  rw [between, queue_join, wordsBetween_append, between]
  congr 1
  refine Eq.trans ?_ hwords
  show wordsBetween _ _ ((f.present m.domain).flatMap _) = _
  rw [wordsBetween]
  congr 1
  refine List.filter_congr fun d hd => ?_
  obtain ⟨e, he, hd⟩ := List.mem_flatMap.1 hd
  rcases List.mem_append.1 hd with hd | hd
  · split at hd
    · obtain ⟨n, _, rfl⟩ := List.mem_map.1 hd
      simp [hne.symm]
    · cases hd
  · split at hd
    · cases List.mem_singleton.1 hd
      simp
    · cases hd

/-- Nobody else is told anything as a participant joins. -/
theorem between_join_of_not {speaker hearer : Handle}
    (hhearer : ∀ x, hearer = f.nextHandle → f.presence? speaker = some x → x.domain = domain →
      listens = true → False)
    (hspeaker : ∀ y, speaker = f.nextHandle → f.presence? hearer = some y → y.domain = domain →
      y.listens = true → False) :
    (f.join domain profile listens).1.between speaker hearer = f.between speaker hearer := by
  suffices hnone : wordsBetween speaker hearer
      ((f.present domain).flatMap (exchange f.nextHandle (.new domain profile listens))) = [] by
    rw [between, queue_join, wordsBetween_append, hnone, List.append_nil, between]
  apply wordsBetween_eq_nil
  intro d hd hsource htarget
  obtain ⟨⟨k, m⟩, hmem, hd⟩ := List.mem_flatMap.1 hd
  obtain ⟨hm, hen, hdomain⟩ := mem_present.1 hmem
  have hpresence : f.presence? k = some m.presence := presence?_eq_some_iff.2 ⟨m, hm, hen, rfl⟩
  rcases List.mem_append.1 hd with hd | hd
  · split at hd
    · rename_i hlistens
      obtain ⟨n, _, rfl⟩ := List.mem_map.1 hd
      subst hsource
      exact hhearer m.presence htarget.symm hpresence hdomain hlistens
    · cases hd
  · split at hd
    · rename_i hlistens
      cases List.mem_singleton.1 hd
      subst htarget
      exact hspeaker m.presence hsource.symm hpresence hdomain hlistens
    · cases hd

end Join

/-! ## What a chronicle adds -/

/-- Whether what is put on its way from one participant to another is what the chronicle adds to
the history. -/
def Tells (f f' : Fabric) (log entries : List Happening) (speaker hearer : Handle) : Prop :=
  ∃ news, f'.between speaker hearer = f.between speaker hearer ++ news ∧
    history speaker hearer (log ++ entries) = history speaker hearer log ++ news

section Tells

variable {f f' : Fabric} {log entries : List Happening} {speaker hearer : Handle}

theorem tells_nothing (hbetween : f'.between speaker hearer = f.between speaker hearer)
    (hhistory : history speaker hearer (log ++ entries) = history speaker hearer log) :
    f.Tells f' log entries speaker hearer :=
  ⟨[], by rw [hbetween, List.append_nil], by rw [hhistory, List.append_nil]⟩

theorem Follows.tells_join_newcomer (h : f.Follows log) (hf : f.Sound)
    (hne : speaker ≠ f.nextHandle) (domain : UInt32) (profile : Profile) (listens : Bool) :
    f.Tells (f.join domain profile listens).1 log [.joined f.nextHandle domain profile listens]
      speaker f.nextHandle := by
  have hbefore := h.unknown f.not_issued_nextHandle
  have hhearer : standing f.nextHandle (log ++ [.joined f.nextHandle domain profile listens]) =
      (standing f.nextHandle log).next (.joined f.nextHandle domain profile listens) :=
    standing_concat log _ rfl
  have hspeaker : standing speaker (log ++ [.joined f.nextHandle domain profile listens]) =
      standing speaker log := standing_concat_of_ne log _ hne.symm
  rw [hbefore] at hhearer
  have hconcat := history_concat speaker f.nextHandle log
    (.joined f.nextHandle domain profile listens)
  rw [meeting?_of_unknown (.inr hbefore), if_neg (by simp)] at hconcat
  by_cases hmeets : ∃ x, f.presence? speaker = some x ∧ x.domain = domain ∧ listens = true
  · obtain ⟨x, hx, rfl, rfl⟩ := hmeets
    refine ⟨x.introduction speaker, between_join_newcomer hf hx, ?_⟩
    have hpresent := h.present_iff.2 hx
    have htogether := Standing.meets_eq_true.2 ⟨x, _, hspeaker.trans hpresent, hhearer, rfl, rfl⟩
    rw [hconcat, together, if_pos htogether, hspeaker, hpresent]
    rfl
  · apply tells_nothing
    · apply between_join_of_not
      · intro x _ hx hdomain hlistens
        exact hmeets ⟨x, hx, hdomain, hlistens⟩
      · intro y hself
        exact absurd hself hne
    · rw [hconcat, if_neg, List.append_nil]
      intro htogether
      obtain ⟨x, y, hx, hy, hdomain, hlistens⟩ := Standing.meets_eq_true.1 htogether
      rw [hspeaker] at hx
      rw [hhearer] at hy
      cases hy
      exact hmeets ⟨x, h.present_iff.1 hx, hdomain, hlistens⟩

theorem Follows.tells_join_of_newcomer (h : f.Follows log) (hf : f.Sound)
    (hne : hearer ≠ f.nextHandle) (domain : UInt32) (profile : Profile) (listens : Bool) :
    f.Tells (f.join domain profile listens).1 log [.joined f.nextHandle domain profile listens]
      f.nextHandle hearer := by
  have hbefore := h.unknown f.not_issued_nextHandle
  have hspeaker : standing f.nextHandle (log ++ [.joined f.nextHandle domain profile listens]) =
      (standing f.nextHandle log).next (.joined f.nextHandle domain profile listens) :=
    standing_concat log _ rfl
  have hhearer : standing hearer (log ++ [.joined f.nextHandle domain profile listens]) =
      standing hearer log := standing_concat_of_ne log _ hne.symm
  rw [hbefore] at hspeaker
  have hconcat := history_concat f.nextHandle hearer log
    (.joined f.nextHandle domain profile listens)
  rw [meeting?_of_unknown (.inl hbefore), if_neg (by simp)] at hconcat
  by_cases hmeets : ∃ y, f.presence? hearer = some y ∧ y.domain = domain ∧ y.listens = true
  · obtain ⟨y, hy, rfl, hlistens⟩ := hmeets
    refine ⟨_, between_join_of_newcomer hf hy hlistens, ?_⟩
    have hpresent := h.present_iff.2 hy
    have htogether :=
      Standing.meets_eq_true.2 ⟨_, y, hspeaker, hhearer.trans hpresent, rfl, hlistens⟩
    rw [hconcat, together, if_pos htogether, hspeaker]
    rfl
  · apply tells_nothing
    · apply between_join_of_not
      · intro x hself
        exact absurd hself hne
      · intro y _ hy hdomain hlistens
        exact hmeets ⟨y, hy, hdomain, hlistens⟩
    · rw [hconcat, if_neg, List.append_nil]
      intro htogether
      obtain ⟨x, y, hx, hy, hdomain, hlistens⟩ := Standing.meets_eq_true.1 htogether
      rw [hspeaker] at hx
      cases hx
      rw [hhearer] at hy
      exact hmeets ⟨y, h.present_iff.1 hy, hdomain.symm, hlistens⟩

theorem Follows.tells_join (h : f.Follows log) (hf : f.Sound) (hne : speaker ≠ hearer)
    (domain : UInt32) (profile : Profile) (listens : Bool) :
    f.Tells (f.join domain profile listens).1 log [.joined f.nextHandle domain profile listens]
      speaker hearer := by
  by_cases hhearer : hearer = f.nextHandle
  · subst hhearer
    exact h.tells_join_newcomer hf hne domain profile listens
  by_cases hspeaker : speaker = f.nextHandle
  · subst hspeaker
    exact h.tells_join_of_newcomer hf hhearer domain profile listens
  apply tells_nothing
  · exact between_join_of_not (fun _ hself => absurd hself hhearer)
      fun _ hself => absurd hself hspeaker
  · have htogether : together speaker hearer
          (log ++ [.joined f.nextHandle domain profile listens]) = together speaker hearer log := by
      rw [together, standing_concat_of_ne log _ (Ne.symm hspeaker),
        standing_concat_of_ne log _ (Ne.symm hhearer), together]
    rw [history_concat, htogether]
    split
    · exact List.append_nil _
    · rename_i hunmet
      rw [if_neg fun hnow => hunmet (isSome_meeting? hnow), List.append_nil]

/-- A participant that is not there has nothing to say. -/
theorem Follows.tells_perform_of_absent (h : f.Follows log) {deed : Deed} {m : Member}
    (hm : f.members.find? speaker = some m) (hmen : m.enabled = false) (after : Option Member)
    (ns : List Notification) (hearer : Handle) :
    f.Tells (f.change speaker m after ns) log [.did speaker deed] speaker hearer := by
  have hgone : f.isEnabled speaker = false := by simp [isEnabled, hm, hmen]
  apply tells_nothing
  · rw [between_change, hmen, if_neg (by simp), List.append_nil]
  · apply history_did_eq
    intro _
    cases hst : standing speaker log with
    | present x => exact absurd hst (h.absent hgone x)
    | unknown => rfl
    | departed => rfl

/-- What a participant that is there says of a deed goes to everybody that it has met. -/
theorem Follows.tells_perform_of_present (h : f.Follows log) {deed : Deed} {m : Member}
    {after : Option Member} {ns : List Notification} (hm : f.members.find? speaker = some m)
    (hmen : m.enabled = true)
    (hwords : ns = m.presence.words speaker deed) (hne : speaker ≠ hearer)
    (hen : f.isEnabled hearer = true)
    (hhearer : (f.change speaker m after ns).members.find? hearer = f.members.find? hearer) :
    f.Tells (f.change speaker m after ns) log [.did speaker deed] speaker hearer := by
  obtain ⟨mh, hmh, hmhen⟩ := isEnabled_iff.1 hen
  have hx := h.present_iff.2 (presence?_eq_some_iff.2 ⟨m, hm, hmen, rfl⟩)
  have hy := h.present_iff.2 (presence?_eq_some_iff.2 ⟨mh, hmh, hmhen, rfl⟩)
  have haudience : hearer ∈ (f.change speaker m after ns).audience m.domain speaker ↔
      together speaker hearer log = true := by
    rw [mem_audience, together, Standing.meets_eq_true, hx, hy, hhearer, hmh]
    constructor
    · rintro ⟨_, m', hm', _, hdomain, hlistens⟩
      cases hm'
      exact ⟨_, _, rfl, rfl, hdomain.symm, hlistens⟩
    · rintro ⟨x, y, hx', hy', hdomain, hlistens⟩
      cases hx'
      cases hy'
      exact ⟨hne.symm, mh, rfl, hmhen, hdomain.symm, hlistens⟩
  by_cases htogether : together speaker hearer log = true
  · refine ⟨ns, ?_, ?_⟩
    · rw [between_change, if_pos ⟨hmen, haudience.2 htogether⟩]
    · rw [history_concat, if_pos (isSome_meeting? htogether), hx, hwords]
      exact congrArg _ (if_pos rfl)
  · apply tells_nothing
    · rw [between_change, if_neg fun hboth => htogether (haudience.1 hboth.2), List.append_nil]
    · apply history_did_eq
      intro hmet
      obtain ⟨n, hn⟩ := Option.isSome_iff_exists.1 hmet
      exact absurd (together_of_present hn hx hy) htogether

theorem Follows.tells_perform (h : f.Follows log) {k : Handle} {deed : Deed}
    (hp : f.Performs k deed f') (hne : speaker ≠ hearer) (hen : f'.isEnabled hearer = true) :
    f.Tells f' log [.did k deed] speaker hearer := by
  obtain ⟨m, after, ns, hm, hc, rfl, hpresence⟩ := hp.change
  by_cases hk : k = speaker
  · subst hk
    have hhearer : (f.change k m after ns).members.find? hearer = f.members.find? hearer := by
      rw [members_change, OrderedMap.find?_alter, if_neg hne.symm]
    rw [isEnabled_congr hhearer] at hen
    cases hmen : m.enabled with
    | false => exact h.tells_perform_of_absent hm hmen after ns hearer
    | true => exact h.tells_perform_of_present hm hmen (hpresence hmen).1 hne hen hhearer
  · apply tells_nothing
    · exact between_change_of_ne hk f m after ns hearer
    · apply history_did_eq
      intro _
      cases standing speaker log with
      | present x => exact if_neg hk
      | unknown => rfl
      | departed => rfl

theorem Does.tells (hd : f.Does entries f') (hgrows : f.queue.toList <+: f'.queue.toList)
    (hf : f.Sound) (h : f.Follows log) (hne : speaker ≠ hearer)
    (hen : f'.isEnabled hearer = true) : f.Tells f' log entries speaker hearer := by
  cases hd with
  | nothing => exact tells_nothing rfl (by rw [List.append_nil])
  | configure => exact tells_nothing rfl (by rw [List.append_nil])
  | take hn => exact absurd hgrows (not_grows_of_next? hn)
  | join domain profile listens => exact h.tells_join hf hne domain profile listens
  | perform hp => exact h.tells_perform hp hne hen

end Tells

end Fabric

end Rendezvous
