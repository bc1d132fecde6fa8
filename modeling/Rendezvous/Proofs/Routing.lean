import Rendezvous.Proofs.Listeners

/-!
# Which way deliveries go

Whatever happens at a site, either more deliveries are put on their way and none is made,
or the one that is due is taken and made or lost. Main statements: every delivery, on its
way or made, goes from one participant to another one of the same domain; and participants
with a listener keep it.
-/

namespace Rendezvous

/-- The notifications that go from one participant to another. -/
def wordsBetween (speaker hearer : Handle) (ds : List Delivery) : List Notification :=
  (ds.filter fun d => d.source == speaker && d.target == hearer).map (·.notification)

theorem wordsBetween_append (speaker hearer : Handle) (ds more : List Delivery) :
    wordsBetween speaker hearer (ds ++ more) =
      wordsBetween speaker hearer ds ++ wordsBetween speaker hearer more := by
  rw [wordsBetween, List.filter_append, List.map_append, wordsBetween, wordsBetween]

theorem wordsBetween_eq_nil {speaker hearer : Handle} {ds : List Delivery}
    (h : ∀ d ∈ ds, d.source = speaker → d.target = hearer → False) :
    wordsBetween speaker hearer ds = [] := by
  rw [wordsBetween, List.map_eq_nil_iff, List.filter_eq_nil_iff]
  intro d hd hboth
  simp only [Bool.and_eq_true, beq_iff_eq] at hboth
  exact h d hd hboth.1 hboth.2

theorem mem_wordsBetween {speaker hearer : Handle} {ds : List Delivery} {n : Notification} :
    n ∈ wordsBetween speaker hearer ds ↔ ⟨speaker, hearer, n⟩ ∈ ds := by
  simp only [wordsBetween, List.mem_map, List.mem_filter, Bool.and_eq_true, beq_iff_eq]
  constructor
  · rintro ⟨d, ⟨hd, rfl, rfl⟩, rfl⟩
    exact hd
  · intro h
    exact ⟨_, ⟨h, rfl, rfl⟩, rfl⟩

namespace Fabric

/-- Whether a delivery goes from one participant to another one of the same domain, and tells of
no participant but the one that it comes from. -/
structure Routed (f : Fabric) (d : Delivery) : Prop where
  source : f.Issued d.source
  target : f.Issued d.target
  ne : d.source ≠ d.target
  subject : ∀ {h profile}, d.notification.subject = .participant h profile → h = d.source
  sameDomain : ∀ {m m'}, f.members.find? d.source = some m →
    f.members.find? d.target = some m' → m.domain = m'.domain

theorem Routed.of_isLater {f f' : Fabric} {d : Delivery} (h : f.Routed d)
    (hlater : f'.IsLater f) : f'.Routed d where
  source := hlater.issued h.source
  target := hlater.issued h.target
  ne := h.ne
  subject := h.subject
  sameDomain {m m'} hm hm' := by
    obtain ⟨was, hwas, hl⟩ := hlater.member h.source hm
    obtain ⟨was', hwas', hl'⟩ := hlater.member h.target hm'
    rw [hl.domain, hl'.domain]
    exact h.sameDomain hwas hwas'

end Fabric

theorem Member.farewell_subject {m : Member} {h k : Handle} {profile : Profile}
    {n : Notification} (hn : n ∈ m.farewell k) (hsubject : n.subject = .participant h profile) :
    h = k ∧ profile = m.profile := by
  rcases List.mem_append.1 hn with hn | hn
  · obtain ⟨e, _, rfl⟩ := List.mem_map.1 hn
    cases hsubject
  · cases List.mem_singleton.1 hn
    cases hsubject
    exact ⟨rfl, rfl⟩

/-- Word of a change tells of no participant but the one that changes, and of that as it is. -/
theorem Member.Change.subject {k : Handle} {m : Member} {after : Option Member}
    {ns : List Notification} (hc : m.Change k after ns) {n : Notification} (hn : n ∈ ns)
    {h : Handle} {profile : Profile} (hsubject : n.subject = .participant h profile) :
    h = k ∧ profile = m.profile := by
  cases hc with
  | announce e =>
      cases List.mem_singleton.1 hn
      cases hsubject
  | withdraw he =>
      cases List.mem_singleton.1 hn
      cases hsubject
  | changeQos =>
      cases List.mem_singleton.1 hn
      cases hsubject
      exact ⟨rfl, rfl⟩
  | close => exact Member.farewell_subject hn hsubject
  | delete => exact Member.farewell_subject hn hsubject

namespace Fabric

def Routes (f : Fabric) : Prop := ∀ d ∈ f.queue.toList, f.Routed d

theorem routes_empty : empty.Routes := fun _ hd => absurd hd List.not_mem_nil

theorem Routes.join {f : Fabric} (h : f.Routes) (hf : f.Sound) (domain : UInt32)
    (profile : Profile) (listens : Bool) : (f.join domain profile listens).1.Routes := by
  have hlater := (Step.join f domain profile listens).isLater
  have hself := f.find?_join_nextHandle domain profile listens
  have hnew : (f.join domain profile listens).1.Issued f.nextHandle := Nat.lt_succ_self _
  intro d hd
  rw [queue_join, List.mem_append] at hd
  rcases hd with hd | hd
  · exact (h d hd).of_isLater hlater
  · obtain ⟨⟨k, m⟩, hmem, hd⟩ := List.mem_flatMap.1 hd
    obtain ⟨hm, _, hdomain⟩ := mem_present.1 hmem
    have hne : k ≠ f.nextHandle := by
      rintro rfl
      exact f.not_issued_nextHandle (hf.member hm)
    have hother : (f.join domain profile listens).1.members.find? k = some m := by
      rw [members_join, OrderedMap.find?_insert, if_neg hne, hm]
    have hissued := hlater.issued (hf.member hm)
    rcases List.mem_append.1 hd with hd | hd
    · split at hd
      · obtain ⟨n, hn, rfl⟩ := List.mem_map.1 hd
        refine ⟨hissued, hnew, hne, fun {h profile} hsubject => ?_, fun hm₁ hm₂ => ?_⟩
        · rcases List.mem_cons.1 hn with rfl | hn
          · cases hsubject
            rfl
          · obtain ⟨e, _, rfl⟩ := List.mem_map.1 hn
            cases hsubject
        · rw [hother] at hm₁
          rw [hself] at hm₂
          cases hm₁
          cases hm₂
          exact hdomain
      · cases hd
    · split at hd
      · cases List.mem_singleton.1 hd
        refine ⟨hnew, hissued, hne.symm, fun {h profile} hsubject => ?_, fun hm₁ hm₂ => ?_⟩
        · cases hsubject
          rfl
        · rw [hself] at hm₁
          rw [hother] at hm₂
          cases hm₁
          cases hm₂
          exact hdomain.symm
      · cases hd

theorem Routes.change {f : Fabric} (h : f.Routes) (hf : f.Sound) {k : Handle} {m : Member}
    {after : Option Member} {ns : List Notification} (hm : f.members.find? k = some m)
    (hc : m.Change k after ns) : (f.change k m after ns).Routes := by
  have hstep := Step.change hm hc
  intro d hd
  rw [queue_change, List.mem_append] at hd
  rcases hd with hd | hd
  · exact (h d hd).of_isLater hstep.isLater
  · split at hd
    · obtain ⟨target, htarget, hd⟩ := List.mem_flatMap.1 hd
      obtain ⟨n, hn, rfl⟩ := List.mem_map.1 hd
      obtain ⟨hne, m', hm', _, hdomain, _⟩ := mem_audience.1 htarget
      have hsound := hstep.sound hf
      refine ⟨hstep.isLater.issued (hf.member hm), hsound.member hm', hne.symm,
        fun hsubject => (hc.subject hn hsubject).1, fun hm₁ hm₂ => ?_⟩
      rw [hm'] at hm₂
      cases hm₂
      obtain ⟨was, hwas, hlater⟩ := hstep.isLater.member (hf.member hm) hm₁
      rw [hm] at hwas
      cases hwas
      rw [hlater.domain, hdomain]
    · cases hd

theorem Step.routes {f f' : Fabric} (h : Step f f') (hf : f.Sound) (hroutes : f.Routes) :
    f'.Routes := by
  have hlater := h.isLater
  cases h with
  | stay => exact hroutes
  | configure => exact fun d hd => (hroutes d hd).of_isLater hlater
  | join domain profile listens => exact hroutes.join hf domain profile listens
  | change hm hc => exact hroutes.change hf hm hc
  | take hn =>
      intro d hd
      apply (hroutes d _).of_isLater hlater
      rw [(next?_eq_some hn).1]
      exact List.mem_cons_of_mem _ hd

end Fabric

/-! ## Deliveries made -/

def Sighting.delivery? : Sighting → Option Delivery
  | .delivered d _ => some d
  | _ => none

namespace Site

def deliveries (s : Site) : List Delivery := s.journal.filterMap (·.delivery?)

theorem deliveries_note (s : Site) (x : Sighting) :
    (s.note x).deliveries = s.deliveries ++ x.delivery?.toList :=
  filterMap_journal_note Sighting.delivery? s x

theorem deliveries_note_of_none {s : Site} {x : Sighting} (hx : x.delivery? = none) :
    (s.note x).deliveries = s.deliveries := filterMap_journal_note_of_none s hx

theorem deliveries_takeIn (s : Site) (h : Handle) (l : Listener) (n : Notification) :
    (s.takeIn h l n).deliveries = s.deliveries := by
  apply filterMap_journal_takeIn (fun _ _ _ => rfl)
  intro h call
  unfold sighting
  split <;> rfl

/-- What a move does with deliveries: it puts more of them on their way, or takes the one that is
due, which is made if somebody hears it. -/
inductive Carries (s s' : Site) : Prop
  | sends (hqueue : s.fabric.queue.toList <+: s'.fabric.queue.toList)
      (hsame : s'.deliveries = s.deliveries)
  | makes {d : Delivery} (hn : s.fabric.next? = some (d, s'.fabric))
      (hen : s.fabric.isEnabled d.target = true) (hmade : s'.deliveries = s.deliveries ++ [d])
  | loses {d : Delivery} (hn : s.fabric.next? = some (d, s'.fabric))
      (hlost : s.fabric.isEnabled d.target = false ∨ s.listeners.find? d.target = none)
      (hsame : s'.deliveries = s.deliveries)

end Site

namespace Fabric

theorem queue_change_grows (f : Fabric) (k : Handle) (m : Member) (after : Option Member)
    (ns : List Notification) :
    f.queue.toList <+: (f.change k m after ns).queue.toList := by
  rw [queue_change]
  exact List.prefix_append _ _

theorem Performs.queue_grows {f f' : Fabric} {k : Handle} {deed : Deed}
    (h : f.Performs k deed f') : f.queue.toList <+: f'.queue.toList := by
  obtain ⟨m, after, ns, _, _, rfl, _⟩ := h.change
  exact queue_change_grows _ _ _ _ _

theorem queue_join_grows (f : Fabric) (domain : UInt32) (profile : Profile) (listens : Bool) :
    f.queue.toList <+: (f.join domain profile listens).1.queue.toList := by
  rw [queue_join]
  exact List.prefix_append _ _

/-- No delivery is taken where the queue has only grown. -/
theorem not_grows_of_next? {f f' : Fabric} {d : Delivery} (hn : f.next? = some (d, f')) :
    ¬ f.queue.toList <+: f'.queue.toList := by
  intro hgrows
  have hle := hgrows.length_le
  rw [(next?_eq_some hn).1, List.length_cons] at hle
  omega

theorem Does.eq_nil_of_next? {f f' : Fabric} {entries : List Happening} {d : Delivery}
    (h : f.Does entries f') (hn : f.next? = some (d, f')) : entries = [] := by
  cases h with
  | nothing => rfl
  | configure => rfl
  | take => rfl
  | join domain profile listens =>
      exact absurd (f.queue_join_grows domain profile listens) (not_grows_of_next? hn)
  | perform hp => exact absurd hp.queue_grows (not_grows_of_next? hn)

theorem isEnabled_of_next? {f f' : Fabric} {d : Delivery} (hn : f.next? = some (d, f'))
    (k : Handle) : f'.isEnabled k = f.isEnabled k := by
  rw [(next?_eq_some hn).2]
  rfl

end Fabric

namespace Site

theorem Step.carries {s s' : Site} (h : Step s s') : s.Carries s' := by
  cases h with
  | join domain profile =>
      exact .sends (Fabric.queue_join_grows s.fabric domain profile false)
        (deliveries_note_of_none rfl)
  | create domain profile =>
      cases hf : s.fabric.failNextCreate with
      | true =>
          rw [create_of_refused hf]
          exact .sends List.prefix_rfl rfl
      | false =>
          rw [create_of_accepted hf]
          exact .sends (Fabric.queue_join_grows s.fabric domain profile true)
            (deliveries_note_of_none rfl)
  | close k =>
      unfold Site.close
      split
      · rename_i hen
        exact .sends (Fabric.Performs.queue_grows (.close hen)) (deliveries_note_of_none rfl)
      · exact .sends List.prefix_rfl rfl
  | delete k =>
      unfold Site.delete
      split
      · rename_i hd
        exact .sends (Fabric.Performs.queue_grows (.delete hd)) (deliveries_note_of_none rfl)
      · exact .sends List.prefix_rfl rfl
  | announce h => exact .sends (Fabric.Performs.queue_grows (.announce h)) rfl
  | withdraw h =>
      obtain ⟨m, e, hm, he, _⟩ := Fabric.removeEntity_eq_ok h
      exact .sends (Fabric.Performs.queue_grows (.withdraw hm he h)) rfl
  | changeQos h => exact .sends (Fabric.Performs.queue_grows (.changeQos h)) rfl
  | configure => exact .sends List.prefix_rfl rfl
  | @lose d fabric hn hd =>
      refine .loses hn ?_ rfl
      rwa [(Fabric.next?_eq_some hn).2] at hd
  | @hear d fabric l hn hen hl =>
      refine .makes (d := d) ?_ ?_ ?_
      · rw [fabric_takeIn]
        exact hn
      · rwa [(Fabric.next?_eq_some hn).2] at hen
      · rw [deliveries_takeIn, deliveries_note]
        rfl
  | settle => exact .sends List.prefix_rfl rfl
  | remark hs =>
      refine .sends List.prefix_rfl (deliveries_note_of_none ?_)
      cases hs <;> rfl

theorem Move.carries {s s' : Site} (h : Move s s') : s.Carries s' := by
  cases h with
  | step h => exact h.carries
  | keep => exact .sends List.prefix_rfl rfl
  | tell => exact .sends List.prefix_rfl (deliveries_note_of_none rfl)

structure Routes (s : Site) : Prop where
  queue : s.fabric.Routes
  made : ∀ d ∈ s.deliveries, s.fabric.Routed d

theorem routes_new (storage : Storage) (processes : ProcessTable) :
    (new storage processes).Routes := ⟨Fabric.routes_empty, nofun⟩

theorem Move.routes {s s' : Site} (h : Move s s') (hs : s.Sound) (hroutes : s.Routes) :
    s'.Routes := by
  have hlater := h.isLater
  constructor
  · cases h with
    | step h => exact h.fabric.routes hs.fabric hroutes.queue
    | keep => exact hroutes.queue
    | tell => exact hroutes.queue
  · intro d hd
    cases h.carries with
    | sends _ hsame =>
        rw [hsame] at hd
        exact (hroutes.made d hd).of_isLater hlater
    | @makes d' hn _ hmade =>
        rw [hmade, List.mem_append, List.mem_singleton] at hd
        rcases hd with hd | rfl
        · exact (hroutes.made d hd).of_isLater hlater
        · apply (hroutes.queue d _).of_isLater hlater
          rw [(Fabric.next?_eq_some hn).1]
          exact List.mem_cons_self
    | loses _ _ hsame =>
        rw [hsame] at hd
        exact (hroutes.made d hd).of_isLater hlater

theorem Moves.routes {s s' : Site} (h : Moves s s') (hs : s.Sound) (hroutes : s.Routes) :
    s'.Routes := h.invariant (fun hmove hs hroutes => hmove.routes hs hroutes) hs hroutes

/-! ## Who is there to hear -/

def Attended (s : Site) : Prop :=
  ∀ k m, s.fabric.members.find? k = some m → m.listens = true →
    ∃ l, s.listeners.find? k = some l

theorem attended_new (storage : Storage) (processes : ProcessTable) :
    (new storage processes).Attended := by
  intro k m hm
  simp [new, Fabric.empty] at hm

/-- Only who joins is given a handle. -/
theorem Step.attended {s s' : Site} (h : Step s s') (hs : s.Sound) (hattended : s.Attended) :
    s'.Attended := by
  intro k m hm hlistens
  have hissued := (h.sound hs).fabric.member hm
  by_cases hk : s.fabric.Issued k
  · obtain ⟨m₀, hm₀, hlater⟩ := h.fabric.isLater.member hk hm
    obtain ⟨l, hl⟩ := hattended k m₀ hm₀ (hlater.listens ▸ hlistens)
    obtain ⟨l', hl', _⟩ := h.listener hk hl
    exact ⟨l', hl'⟩
  · have hfirst : ∀ {domain profile listens},
        (s.fabric.join domain profile listens).1.Issued k → k = s.fabric.nextHandle :=
      fun hissued => ((Fabric.issued_join _ _ _).1 hissued).resolve_right hk
    cases h with
    | join domain profile =>
        obtain rfl := hfirst hissued
        have hself : (s.fabric.join domain profile false).1.members.find? s.fabric.nextHandle =
            some m := hm
        rw [Fabric.find?_join_nextHandle] at hself
        cases hself
        cases hlistens
    | @create domain profile l hl =>
        cases hf : s.fabric.failNextCreate with
        | true =>
            rw [create_of_refused hf] at hissued
            exact absurd hissued hk
        | false =>
            rw [create_of_accepted hf] at hissued ⊢
            obtain rfl := hfirst hissued
            exact ⟨l, (OrderedMap.find?_insert _ _ _ _).trans (if_pos rfl)⟩
    | close target =>
        revert hissued
        unfold Site.close
        split <;> intro hissued
        · rename_i hen
          exact absurd ((Fabric.Performs.issued (.close hen)).1 hissued) hk
        · exact absurd hissued hk
    | delete target =>
        revert hissued
        unfold Site.delete
        split <;> intro hissued
        · rename_i hd
          exact absurd ((Fabric.Performs.issued (.delete hd)).1 hissued) hk
        · exact absurd hissued hk
    | announce h => exact absurd ((Fabric.Performs.issued (.announce h)).1 hissued) hk
    | withdraw h =>
        obtain ⟨m, e, hm, he, _⟩ := Fabric.removeEntity_eq_ok h
        exact absurd ((Fabric.Performs.issued (.withdraw hm he h)).1 hissued) hk
    | changeQos h => exact absurd ((Fabric.Performs.issued (.changeQos h)).1 hissued) hk
    | lose hn =>
        rw [(Fabric.next?_eq_some hn).2] at hissued
        exact absurd hissued hk
    | hear hn =>
        rw [fabric_takeIn, (Fabric.next?_eq_some hn).2] at hissued
        exact absurd hissued hk
    | configure => exact absurd hissued hk
    | settle => exact absurd hissued hk
    | remark => exact absurd hissued hk

theorem Move.attended {s s' : Site} (h : Move s s') (hs : s.Sound) (hattended : s.Attended) :
    s'.Attended := by
  cases h with
  | step h => exact h.attended hs hattended
  | keep => exact hattended
  | tell => exact hattended

end Site

end Rendezvous
