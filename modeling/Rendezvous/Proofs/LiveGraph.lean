import Mathlib
import Rendezvous.Proofs.Hearing
import Rendezvous.Proofs.Mirroring
import Rendezvous.Proofs.Runs

/-!
# Graphs of running servers

The graph of a server mirrors its domain at every moment, once the notifications that are
still on their way to the server are folded in. With no delivery left to make, the latest
snapshot shows every other participant of the domain, with all its readers and writers,
and nobody else. Two participants under one prefix cannot be told apart in a snapshot, so
this is said of servers that never met two others under the same prefix.
-/

namespace Rendezvous

/-- Whether the others in the domain of a server go by different prefixes. -/
def ApartFrom (server : Handle) (roll : List Attendee) : Prop :=
  ∀ self ∈ roll, self.handle = server → ∀ a ∈ roll, ∀ b ∈ roll, a.handle ≠ server →
    b.handle ≠ server → a.domain = self.domain → b.domain = self.domain →
      a.guidPrefix = b.guidPrefix → a = b

instance (server : Handle) (roll : List Attendee) : Decidable (ApartFrom server roll) :=
  inferInstanceAs (Decidable (∀ self ∈ roll, self.handle = server → ∀ a ∈ roll, ∀ b ∈ roll,
    a.handle ≠ server → b.handle ≠ server → a.domain = self.domain → b.domain = self.domain →
      a.guidPrefix = b.guidPrefix → a = b))

/-- Whether they did so at each moment at which the server took part. -/
def ApartSince (journal : List Sighting) (server : Handle) : Prop :=
  ∀ past, past <+: journal → ApartFrom server (attendance past)

theorem ApartSince.earlier {journal journal' : List Sighting} {server : Handle}
    (h : ApartSince journal' server) (hguid : journal <+: journal') :
    ApartSince journal server :=
  fun past hpast => h past (hpast.trans hguid)

/-- A listener with a graph folds every event into it, whether or not something is called. -/
theorem DiscoveryListener.graph_receive {l : DiscoveryListener} {g : Graph}
    (hg : l.graph = some g) (n : Notification) :
    (l.receive n).1.graph = some (g.applyAll (eventsOf [n])) := by
  unfold receive
  cases hevent : n.event? with
  | none => simp [countQosChange, hg, eventsOf, hevent, Graph.applyAll]
  | some e =>
      cases hbinding : l.registry.binding e.category with
      | none =>
          simp [hg, hbinding, observe, countUnbound, eventsOf, hevent, Graph.applyAll]
      | some b => simp [hg, hbinding, observe, eventsOf, hevent, Graph.applyAll]

theorem DiscoveryListener.graph_settle (l : DiscoveryListener) (response : Response) :
    (l.settle response).graph = l.graph := by
  cases response <;> rfl

/-! ## The invariant -/

/-- What is always true of a server: its listener keeps a graph, and as long as the server
takes part, the graph with all that is on its way mirrors the domain. -/
structure Site.Mirrored (config : Config) (running : Running) (s : Site) : Prop where
  issued : s.fabric.Issued running.handle
  member : ∀ {watcher}, s.fabric.members.find? running.handle = some watcher →
    watcher.domain = running.domain ∧ watcher.listens = true
  graph : ∃ l g, s.listeners.find? running.handle = some (.discovery l) ∧ l.graph = some g ∧
    g.IsCurrent ∧ g.includeInternals = config.includeInternals ∧
    (s.fabric.isEnabled running.handle = true → ApartSince s.journal running.handle →
      (g.roster.withBound s.fabric running.handle).Mirrors s.fabric running.domain
        running.handle)

namespace Site

theorem Sound.apart {s : Site} (hs : s.Sound) {server : Handle} {watcher : Member}
    (hapart : ApartSince s.journal server) (hwatcher : s.fabric.members.find? server = some watcher)
    (hen : watcher.enabled = true) : s.fabric.Apart watcher.domain server := by
  have hroll : ∀ {k m}, s.fabric.members.find? k = some m → m.enabled = true →
      (⟨k, m.profile.guidPrefix, m.domain⟩ : Attendee) ∈ s.roll := by
    intro k m hm hen
    exact (hs.mem_roll _).2 (Fabric.part?_eq_some_iff.2 ⟨m, hm, hen, rfl, rfl⟩)
  intro k m k' m' hk hk' hguid
  obtain ⟨hne, hm, hmen, hdomain⟩ := Fabric.mem_others.1 hk
  obtain ⟨hne', hm', hmen', hdomain'⟩ := Fabric.mem_others.1 hk'
  have hsame := hapart s.journal List.prefix_rfl _ (hroll hwatcher hen) rfl _ (hroll hm hmen) _
    (hroll hm' hmen') hne hne' hdomain hdomain' hguid
  exact congrArg Attendee.handle hsame

namespace Mirrored

variable {config : Config} {running : Running} {s s' : Site}

/-- Whatever leaves the listener of the server alone only needs to keep what mirrors the
fabric. -/
theorem of_keep (h : s.Mirrored config running) (hs : s.Sound) (hs' : s'.Sound)
    (hlater : s'.fabric.IsLater s.fabric) (hjournal : s.journal <+: s'.journal)
    (hlisteners : s'.listeners.find? running.handle = s.listeners.find? running.handle)
    (hkeep : ∀ {r : Roster} {watcher},
      s.fabric.members.find? running.handle = some watcher → watcher.domain = running.domain →
      watcher.enabled = true → watcher.listens = true →
      s.fabric.Apart running.domain running.handle →
      s'.fabric.Apart running.domain running.handle →
      (r.withBound s.fabric running.handle).Mirrors s.fabric running.domain running.handle →
      (r.withBound s'.fabric running.handle).Mirrors s'.fabric running.domain running.handle) :
    s'.Mirrored config running := by
  obtain ⟨l, g, hl, hg, hcurrent, hinternals, hmirrors⟩ := h.graph
  refine ⟨hlater.issued h.issued, fun {watcher} hwatcher => ?_,
    l, g, hlisteners.trans hl, hg, hcurrent, hinternals, fun hen hapart => ?_⟩
  · obtain ⟨before, hbefore, hwas⟩ := hlater.member h.issued hwatcher
    obtain ⟨hdomain, hlistens⟩ := h.member hbefore
    exact ⟨hwas.domain.trans hdomain, hwas.listens.trans hlistens⟩
  · obtain ⟨watcher, hwatcher, hen'⟩ := Fabric.isEnabled_iff.1 hen
    obtain ⟨before, hbefore, hwas⟩ := hlater.member h.issued hwatcher
    obtain ⟨hdomain, hlistens⟩ := h.member hbefore
    have hbeforeEn := hwas.enabled hen'
    have hapartBefore := hapart.earlier hjournal
    have hfirst := hs.apart hapartBefore hbefore hbeforeEn
    have hlast := hs'.apart hapart hwatcher hen'
    rw [hwas.domain, hdomain] at hlast
    rw [hdomain] at hfirst
    exact hkeep hbefore hdomain hbeforeEn hlistens hfirst hlast
      (hmirrors (Fabric.isEnabled_iff.2 ⟨before, hbefore, hbeforeEn⟩) hapartBefore)

theorem of_change (h : s.Mirrored config running) (hs : s.Sound) (hs' : s'.Sound) {k : Handle}
    {m : Member} {after : Option Member} {ns : List Notification}
    (hm : s.fabric.members.find? k = some m) (hc : m.Change k after ns)
    (hfabric : s'.fabric = s.fabric.change k m after ns) (hjournal : s.journal <+: s'.journal)
    (hlisteners : s'.listeners = s.listeners) : s'.Mirrored config running := by
  have hlater : s'.fabric.IsLater s.fabric := hfabric ▸ (Fabric.Step.change hm hc).isLater
  refine h.of_keep hs hs' hlater hjournal (by rw [hlisteners]) ?_
  intro r watcher hwatcher hdomain hen hlistens hfirst _ hmirrors
  rw [hfabric]
  exact hmirrors.change hfirst hwatcher hdomain hen hlistens hm hc

theorem of_join (h : s.Mirrored config running) (hs : s.Sound) (hs' : s'.Sound)
    {domain : UInt32} {profile : Profile} {listens : Bool}
    (hfabric : s'.fabric = (s.fabric.join domain profile listens).1)
    (hjournal : s.journal <+: s'.journal)
    (hlisteners : s'.listeners.find? running.handle = s.listeners.find? running.handle) :
    s'.Mirrored config running := by
  have hlater : s'.fabric.IsLater s.fabric :=
    hfabric ▸ (Fabric.Step.join s.fabric domain profile listens).isLater
  refine h.of_keep hs hs' hlater hjournal hlisteners ?_
  intro r watcher hwatcher hdomain hen hlistens _ hlast hmirrors
  rw [hfabric] at hlast ⊢
  exact hmirrors.join hs.fabric hwatcher hdomain hen hlistens domain profile listens hlast

/-- Remarks, and what the host asks the fabric to refuse, concern no graph. -/
theorem of_same (h : s.Mirrored config running) (hs : s.Sound) (hs' : s'.Sound)
    (hmembers : s'.fabric.members = s.fabric.members)
    (hnext : s'.fabric.nextHandle = s.fabric.nextHandle)
    (hqueue : s'.fabric.bound running.handle = s.fabric.bound running.handle)
    (hjournal : s.journal <+: s'.journal)
    (hlisteners : s'.listeners.find? running.handle = s.listeners.find? running.handle) :
    s'.Mirrored config running := by
  have hlater : s'.fabric.IsLater s.fabric := by
    refine ⟨fun {k} hk => ?_, fun {k m} _ hm => ?_⟩
    · rw [Fabric.Issued, hnext]
      exact hk
    · rw [hmembers] at hm
      exact ⟨m, hm, .refl m⟩
  refine h.of_keep hs hs' hlater hjournal hlisteners ?_
  intro r watcher _ _ _ _ _ _ hmirrors
  rw [Roster.withBound, hqueue]
  refine Roster.Mirrors.congr hmirrors fun k m => ?_
  rw [Fabric.mem_others, Fabric.mem_others, hmembers]

theorem of_take (h : s.Mirrored config running) (hs : s.Sound) (hs' : s'.Sound) {d : Delivery}
    {fabric : Fabric} (hn : s.fabric.next? = some (d, fabric)) (hne : d.target ≠ running.handle)
    (hfabric : s'.fabric = fabric) (hjournal : s.journal <+: s'.journal)
    (hlisteners : s'.listeners.find? running.handle = s.listeners.find? running.handle) :
    s'.Mirrored config running := by
  have hbound := Fabric.bound_of_next? hn running.handle
  rw [if_neg hne, List.nil_append] at hbound
  have hrest := (Fabric.next?_eq_some hn).2
  refine h.of_same hs hs' ?_ ?_ (by rw [hfabric, hbound]) hjournal hlisteners
  · rw [hfabric, hrest]
  · rw [hfabric, hrest]

/-- A delivery to the server itself moves on from what is on its way to the graph. -/
theorem of_hear (h : s.Mirrored config running) {d : Delivery} {fabric : Fabric}
    {l : DiscoveryListener} {g : Graph} (hn : s.fabric.next? = some (d, fabric))
    (htarget : d.target = running.handle) (hl : s.listeners.find? running.handle =
      some (.discovery l)) (hg : l.graph = some g) (hfabric : s'.fabric = fabric)
    (hjournal : s.journal <+: s'.journal)
    (hheard : s'.listeners.find? running.handle =
      some (.discovery (l.receive d.notification).1)) : s'.Mirrored config running := by
  have hrest := (Fabric.next?_eq_some hn).2
  have hbound := Fabric.bound_of_next? hn running.handle
  rw [if_pos htarget] at hbound
  obtain ⟨l', g', hl', hg', hcurrent, hinternals, hmirrors⟩ := h.graph
  rw [hl] at hl'
  cases hl'
  rw [hg] at hg'
  cases hg'
  have hmembers : s'.fabric.members = s.fabric.members := by rw [hfabric, hrest]
  refine ⟨?_, fun hwatcher => h.member (hmembers ▸ hwatcher), _, _, hheard,
    DiscoveryListener.graph_receive hg d.notification, hcurrent.applyAll _, ?_,
    fun hen hapart => ?_⟩
  · have hissued := h.issued
    rwa [Fabric.Issued, hfabric, hrest]
  · rw [Graph.includeInternals_applyAll, hinternals]
  · rw [Fabric.isEnabled, hmembers] at hen
    have hbefore := hmirrors hen (hapart.earlier hjournal)
    rw [Roster.withBound, hbound, eventsOf_append, Roster.afterAll_append,
      ← Graph.roster_applyAll] at hbefore
    rw [Roster.withBound, hfabric]
    refine Roster.Mirrors.congr hbefore fun k m => ?_
    rw [Fabric.mem_others, Fabric.mem_others, hrest]

/-- Only a server that takes part no more loses what is on its way. -/
theorem of_lose (h : s.Mirrored config running) {d : Delivery} {fabric : Fabric}
    (hn : s.fabric.next? = some (d, fabric)) (htarget : d.target = running.handle)
    (hlost : fabric.isEnabled d.target = false ∨ s.listeners.find? d.target = none) :
    ({ s with fabric }).Mirrored config running := by
  obtain ⟨l, g, hl, hg, hcurrent, hinternals, _⟩ := h.graph
  have hrest := (Fabric.next?_eq_some hn).2
  have hgone : fabric.isEnabled running.handle = false := by
    rcases hlost with hlost | hlost
    · rwa [htarget] at hlost
    · rw [htarget, hl] at hlost
      cases hlost
  have hissued : fabric.Issued running.handle := by
    rw [hrest]
    exact h.issued
  refine ⟨hissued, fun hwatcher => h.member ?_, l, g, hl, hg, hcurrent, hinternals, fun hen => ?_⟩
  · rw [hrest] at hwatcher
    exact hwatcher
  · rw [hgone] at hen
    cases hen

theorem of_settle (h : s.Mirrored config running) (k : Handle) (call : Call) :
    (s.settle k call).Mirrored config running := by
  obtain ⟨l, g, hl, hg, hrest⟩ := h.graph
  by_cases hk : running.handle = k
  · refine ⟨h.issued, h.member, l.settle call.binding.callback.response, g, ?_, ?_, hrest⟩
    · simp only [Site.settle, OrderedMap.find?_modify]
      rw [if_pos hk, ← hk, hl]
      rfl
    · rw [DiscoveryListener.graph_settle, hg]
  · refine ⟨h.issued, h.member, l, g, ?_, hg, hrest⟩
    simp only [Site.settle, OrderedMap.find?_modify]
    rw [if_neg hk, hl]

end Mirrored

theorem Step.mirrored {config : Config} {running : Running} {s s' : Site} (h : Step s s')
    (hs : s.Sound) (hm : s.Mirrored config running) : s'.Mirrored config running := by
  have hs' := h.sound hs
  have hjournal := h.adds.journal_grows
  cases h with
  | join domain profile => exact hm.of_join hs hs' rfl hjournal rfl
  | @create domain profile l hl =>
      cases hf : s.fabric.failNextCreate with
      | true =>
          rw [create_of_refused hf] at hs' hjournal ⊢
          exact hm.of_same hs hs' rfl rfl rfl hjournal rfl
      | false =>
          rw [create_of_accepted hf] at hs' hjournal ⊢
          refine hm.of_join hs hs' rfl hjournal ?_
          have hne : running.handle ≠ s.fabric.nextHandle := by
            intro heq
            exact s.fabric.not_issued_nextHandle (heq ▸ hm.issued)
          exact (OrderedMap.find?_insert _ _ _ _).trans (if_neg hne)
  | close k =>
      revert hs' hjournal
      unfold Site.close
      split <;> intro hs' hjournal
      · rename_i hen
        obtain ⟨m, hfind, hen⟩ := Fabric.isEnabled_iff.1 hen
        exact hm.of_change hs hs' hfind .close (Fabric.close_of_enabled hfind hen)
          hjournal rfl
      · exact hm
  | delete k =>
      revert hs' hjournal
      unfold Site.delete
      split <;> intro hs' hjournal
      · rename_i fabric hdelete
        obtain ⟨_, m, hfind, heq⟩ := Fabric.delete_eq_ok hdelete
        exact hm.of_change hs hs' hfind .delete heq hjournal rfl
      · exact hm
  | announce hadd =>
      obtain ⟨m, hfind, heq⟩ := Fabric.addEntity_eq_ok hadd
      exact hm.of_change hs hs' hfind (.announce _) heq hjournal rfl
  | withdraw hremove =>
      obtain ⟨m, e, hfind, hentity, heq⟩ := Fabric.removeEntity_eq_ok hremove
      exact hm.of_change hs hs' hfind (.withdraw hentity) heq hjournal rfl
  | changeQos hupdate =>
      obtain ⟨m, hfind, heq⟩ := Fabric.updateQos_eq_ok hupdate
      exact hm.of_change hs hs' hfind .changeQos heq hjournal rfl
  | configure failNextCreate refuseDeletes =>
      exact hm.of_same hs hs' rfl rfl rfl hjournal rfl
  -- Deliveries are split by whether they are made to the server itself.
  | @lose d fabric hn hlost =>
      by_cases htarget : d.target = running.handle
      · exact hm.of_lose hn htarget hlost
      · exact hm.of_take hs hs' hn htarget rfl hjournal rfl
  | @hear d fabric l hn hen hl =>
      have hfabric := fabric_takeIn ({ s with fabric }.note (.delivered d l.label?)) d.target l
        d.notification
      by_cases htarget : d.target = running.handle
      · obtain ⟨l', g, hl', hg, _⟩ := hm.graph
        rw [htarget, hl'] at hl
        cases hl
        refine hm.of_hear hn htarget hl' hg hfabric hjournal ?_
        rw [htarget]
        exact find?_listeners_takeIn_discovery _ _ _ _
      · exact hm.of_take hs hs' hn htarget hfabric hjournal
          (find?_listeners_takeIn_of_ne _ (Ne.symm htarget) _ _)
  | settle k call => exact hm.of_settle k call
  | remark hx => exact hm.of_same hs hs' rfl rfl rfl hjournal rfl

theorem Move.mirrored {config : Config} {running : Running} {s s' : Site} (h : Move s s')
    (hs : s.Sound) (hm : s.Mirrored config running) : s'.Mirrored config running := by
  have hs' := h.sound hs
  have hjournal := h.journal_grows
  cases h with
  | step h => exact h.mirrored hs hm
  | keep storage => exact hm.of_same hs hs' rfl rfl rfl hjournal rfl
  | tell h => exact hm.of_same hs hs' rfl rfl rfl hjournal rfl

theorem mirrored_create {s : Site} (hs : s.Sound) (hf : s.fabric.failNextCreate = false)
    (config : Config) (domain : UInt32) (registry : Registry) (profile : Profile) :
    (s.create domain profile
      (.discovery (.new registry (some (.new config.includeInternals))))).1.Mirrored config
      ⟨domain, s.fabric.nextHandle⟩ := by
  have hs' := (Step.create s domain profile (.discovery registry config.includeInternals)).sound hs
  rw [create_of_accepted hf] at hs' ⊢
  have hself := s.fabric.find?_join_nextHandle domain profile true
  refine ⟨Nat.lt_succ_self _, fun {watcher} hwatcher => ?_, _, _,
    (OrderedMap.find?_insert _ _ _ _).trans (if_pos rfl), rfl, Graph.isCurrent_new _, rfl,
    fun _ hapart => ?_⟩
  · have hwatcher' : (s.fabric.join domain profile true).1.members.find? s.fabric.nextHandle =
        some watcher := hwatcher
    rw [hself] at hwatcher'
    cases hwatcher'
    exact ⟨rfl, rfl⟩
  · have happart : (s.fabric.join domain profile true).1.Apart domain s.fabric.nextHandle :=
      hs'.apart hapart hself rfl
    exact Roster.mirrors_join_nextHandle hs.fabric domain profile happart

end Site

/-- The graph of every server that a context holds is true, all along every run. -/
theorem Deployment.Reachable.mirrored {d : Deployment} (hd : d.Reachable) {c : Context}
    (hc : d.Owns c) {running : Running} (hr : c.server = some running) :
    d.site.Mirrored c.config running :=
  hd.holds (P := fun config running s => s.Mirrored config running)
    (fun hmove hs hm => hmove.mirrored hs hm)
    (fun config domain registry hs hf => Site.mirrored_create hs hf config domain registry _)
    hc hr

/-! ## Snapshots -/

/-- Whether counts tell, for each key that is shown, how often it is in a list of keys. -/
structure CountsOf (includeInternals : Bool) (keys : List TopicKey)
    (counts : List EntityCount) : Prop where
  nodup : (counts.map (·.key)).Nodup
  mem_iff : ∀ key n, ⟨key, n⟩ ∈ counts ↔
    key.isVisible includeInternals = true ∧ 0 < n ∧ n = keys.count key

/-- Whether a view of a participant shows a member: its endpoint, and how many readers and
writers it has under each key. -/
structure ParticipantView.Shows (includeInternals : Bool) (v : ParticipantView) (m : Member) :
    Prop where
  guidPrefix : v.guidPrefix = m.profile.guidPrefix
  endpoint : v.endpoint = some (.ofFirst m.profile.locators)
  readers : CountsOf includeInternals (m.keys .reader) v.readers
  writers : CountsOf includeInternals (m.keys .writer) v.writers

theorem Tally.countsOf_view (includeInternals : Bool) (keys : List TopicKey) :
    CountsOf includeInternals keys ((Tally.ofKeys keys).view includeInternals) where
  nodup := by
    have hkeys : ((Tally.ofKeys keys).visible includeInternals).map (·.1) =
        ((Tally.ofKeys keys).view includeInternals).map (·.key) := by
      simp [Tally.view, Function.comp_def]
    rw [← hkeys]
    exact (Tally.ofKeys keys).nodup_keys.sublist (List.filter_sublist.map _)
  mem_iff key n := by
    have hmem : (⟨key, n⟩ : EntityCount) ∈ (Tally.ofKeys keys).view includeInternals ↔
        (key, n) ∈ (Tally.ofKeys keys).visible includeInternals := by
      simp [Tally.view]
    rw [hmem, Tally.visible, List.mem_filter, mem_entries_ofKeys]
    exact and_comm

theorem Member.shows_view (includeInternals : Bool) (m : Member) :
    (m.known.view includeInternals m.profile.guidPrefix).Shows includeInternals m where
  guidPrefix := rfl
  endpoint := rfl
  readers := Tally.countsOf_view includeInternals (m.keys .reader)
  writers := Tally.countsOf_view includeInternals (m.keys .writer)

/-- The views of the others are those of a roster that mirrors them, in some order. -/
theorem Roster.Mirrors.perm_view {r : Roster} {f : Fabric} {domain : UInt32} {observer : Handle}
    (h : r.Mirrors f domain observer) (hapart : f.Apart domain observer)
    (includeInternals : Bool) :
    ((f.others domain observer).map fun e =>
      e.2.known.view includeInternals e.2.profile.guidPrefix).Perm (r.view includeInternals) := by
  have hnodup : (f.others domain observer).Nodup :=
    List.Nodup.of_map Prod.fst ((f.nodup_present domain).sublist (List.filter_sublist.map _))
  have hleft : ((f.others domain observer).map fun e =>
      (e.2.profile.guidPrefix, e.2.known)).Nodup := by
    refine List.Nodup.map_on (fun e he e' he' hsame => ?_) hnodup
    have hk : e.1 = e'.1 := hapart he he' (congrArg Prod.fst hsame)
    have hm := (Fabric.mem_others.1 he).2.1
    have hm' := (Fabric.mem_others.1 he').2.1
    rw [hk, hm'] at hm
    exact Prod.ext hk (Option.some.inj hm).symm
  have hperm : ((f.others domain observer).map fun e =>
      (e.2.profile.guidPrefix, e.2.known)).Perm r.entries := by
    have hright : r.entries.Nodup := List.Nodup.of_map Prod.fst (OrderedMap.nodup_keys r)
    refine (List.perm_ext_iff_of_nodup hleft hright).2 ?_
    rintro ⟨p, known⟩
    rw [← OrderedMap.find?_eq_some_iff, h p known]
    simp only [List.mem_map, Prod.mk.injEq, Prod.exists]
  have hviews := hperm.map fun e : GuidPrefix × KnownParticipant => e.2.view includeInternals e.1
  rw [List.map_map] at hviews
  exact hviews

/-- With no delivery left to make, the latest snapshot of a server that takes part shows each
other participant of its domain once, and nobody else. -/
theorem Deployment.Reachable.latest_shows_others {d : Deployment} (hd : d.Reachable)
    (hqueue : d.site.fabric.queue.toList = []) {c : Context} (hc : d.Owns c)
    {running : Running} (hr : c.server = some running) {self : Member}
    (hself : d.site.fabric.members.find? running.handle = some self) (hen : self.enabled = true)
    (hapart : ApartSince d.site.journal running.handle) :
    self.domain = running.domain ∧ ∃ snapshot views,
      d.latestOf running.handle = some snapshot ∧ views.Perm snapshot.participants ∧
      List.Forall₂ (fun v (e : Handle × Member) =>
          ParticipantView.Shows c.config.includeInternals v e.2)
        views (d.site.fabric.others self.domain running.handle) := by
  have hm := hd.mirrored hc hr
  have happart := hd.sound.apart hapart hself hen
  obtain ⟨l, g, hl, hg, hcurrent, hinternals, hmirrors⟩ := hm.graph
  have hdomain : self.domain = running.domain := (hm.member hself).1
  have hroster := hmirrors (Fabric.isEnabled_iff.2 ⟨self, hself, hen⟩) hapart
  have hbound : d.site.fabric.bound running.handle = [] := by
    rw [Fabric.bound, hqueue]
    rfl
  rw [Roster.withBound, hbound, ← hdomain] at hroster
  refine ⟨hdomain, g.latest, (d.site.fabric.others self.domain running.handle).map fun e =>
    e.2.known.view c.config.includeInternals e.2.profile.guidPrefix, ?_, ?_, ?_⟩
  · simp [Deployment.latestOf, Site.discoveryListener?, hl, hg]
  · rw [hcurrent, hinternals]
    exact hroster.perm_view happart c.config.includeInternals
  · rw [List.forall₂_map_left_iff]
    exact List.forall₂_same.2 fun e _ => e.2.shows_view c.config.includeInternals

/-- A server on a domain with one peer, which has two writers under the same key. -/
def Deployment.withPeer : Deployment :=
  (new (Site.new .empty ⟨1, [], 0⟩) .memory).performAll
    [.command (.addPeer 1 ⟨Config.defaultRecoveryPrefix, none, []⟩),
      .install (Config.default (.ofString "state")) false, .startInstalled 1,
      .command (.addEntity ⟨1⟩ .writer "rt/chatter" "String" ⟨[], []⟩ 2)]

theorem Deployment.attendance_withPeer :
    withPeer.site.journal.inits.map attendance =
      [] :: List.replicate 2 [⟨⟨1⟩, Config.defaultRecoveryPrefix, 1⟩] ++
        List.replicate 8 [⟨⟨1⟩, Config.defaultRecoveryPrefix, 1⟩,
          ⟨⟨2⟩, Config.defaultServerPrefix, 1⟩] := by cbv

theorem Deployment.latest_shows_peer :
    ∃ snapshot views, withPeer.latestOf ⟨2⟩ = some snapshot ∧
      views.Perm snapshot.participants ∧
      List.Forall₂ (fun v (e : Handle × Member) => ParticipantView.Shows false v e.2)
        views (withPeer.site.fabric.others 1 ⟨2⟩) := by
  have hreachable : withPeer.Reachable := ⟨_, _, _, run_performAll _ _⟩
  have hqueue : withPeer.site.fabric.queue.toList = [] := by cbv
  have hc : withPeer.Owns
      ⟨Config.default (.ofString "state"), .memory, some ⟨1, ⟨2⟩⟩⟩ := .inr (by cbv)
  have hen : withPeer.site.fabric.isEnabled ⟨2⟩ = true := by cbv
  obtain ⟨self, hself, hen⟩ := Fabric.isEnabled_iff.1 hen
  have hapart : ApartSince withPeer.site.journal ⟨2⟩ := by
    intro past hpast
    have hmem := List.mem_map_of_mem (f := attendance) ((List.mem_inits past _).2 hpast)
    rw [attendance_withPeer] at hmem
    revert hmem
    generalize attendance past = roll
    revert roll
    decide
  obtain ⟨hdomain, hshows⟩ := hreachable.latest_shows_others hqueue hc rfl hself hen hapart
  rw [hdomain] at hshows
  exact hshows

example : (Deployment.withPeer.latestOf ⟨2⟩).map (·.participants) =
    some [⟨Config.defaultRecoveryPrefix, some (.ofFirst []), [],
      [⟨⟨"/chatter", "String"⟩, 2⟩]⟩] := by cbv

end Rendezvous
