import Rendezvous.Proofs.Aftermath

/-!
# When a recovery forgets a server

A recovery clears the record of its domain as soon as its participant has matched anybody, and
it counts a match before it knows whether the deletion was accepted. Main statement: the record
of a process that exists goes only if somebody was matched; and the recovery comes to everybody
who carries the server prefix if it waits until all is delivered, and leaves nobody whose deletion
is accepted when it comes to them.
-/

namespace Rendezvous

namespace Fabric

variable {f f' : Fabric} {p : GuidPrefix} {h k : Handle}

theorem mem_pending : k ∈ f.pending p h ↔
    ∃ d ∈ f.queue.toList, d.target = h ∧ Site.discovers? p d.notification = some k := by
  simp only [pending, bound, List.mem_filterMap, List.mem_map, List.mem_filter, beq_iff_eq]
  constructor
  · rintro ⟨_, ⟨d, ⟨hd, htarget⟩, rfl⟩, hk⟩
    exact ⟨d, hd, htarget, hk⟩
  · rintro ⟨d, hd, htarget, hk⟩
    exact ⟨_, ⟨d, ⟨hd, htarget⟩, rfl⟩, hk⟩

theorem pending_subset (hqueue : f.queue.toList <+: f'.queue.toList) :
    f.pending p h ⊆ f'.pending p h := by
  intro k hk
  obtain ⟨d, hd, hrest⟩ := mem_pending.1 hk
  exact mem_pending.2 ⟨d, hqueue.subset hd, hrest⟩

end Fabric

namespace Site

variable {s s' s'' : Site}

/-! ## What a listener does only adds deliveries -/

def Sends (s s' : Site) : Prop := s.fabric.queue.toList <+: s'.fabric.queue.toList

theorem Sends.refl (s : Site) : s.Sends s := List.prefix_rfl

theorem Sends.trans (h : s.Sends s') (h' : s'.Sends s'') : s.Sends s'' :=
  List.IsPrefix.trans h h'

theorem sends_delete (s : Site) (k : Handle) : s.Sends (s.delete k).1 := by
  unfold delete
  split
  · rename_i hd
    exact Fabric.Performs.queue_grows (.delete hd)
  · exact .refl s

theorem sends_close (s : Site) (k : Handle) : s.Sends (s.close k) := by
  unfold close
  split
  · rename_i hen
    exact Fabric.Performs.queue_grows (.close hen)
  · exact .refl s

theorem sends_create (s : Site) (domain : UInt32) (profile : Profile) (l : Listener) :
    s.Sends (s.create domain profile l).1 := by
  cases hf : s.fabric.failNextCreate with
  | true =>
      rw [create_of_refused hf]
      exact .refl s
  | false =>
      rw [create_of_accepted hf]
      exact s.fabric.queue_join_grows domain profile true

theorem sends_addEntities (s : Site) (owner : Handle) (kind : EntityKind)
    (topicName typeName : String) (locators : RemoteLocators) (copies : Nat) (reply : Reply) :
    s.Sends (s.addEntities owner kind topicName typeName locators copies reply).1 := by
  induction copies generalizing s reply with
  | zero => exact .refl s
  | succ copies ih =>
      unfold addEntities
      split
      · rename_i fabric id h
        have hannounce : s.Sends { s with fabric } := Fabric.Performs.queue_grows (.announce h)
        exact hannounce.trans (ih { s with fabric } (.entity id))
      · exact ih _ _

theorem sends_perform (s : Site) (c : Command) : s.Sends (s.perform c).1 := by
  cases c with
  | addPeer domain profile => exact s.fabric.queue_join_grows domain profile false
  | create domain profile label script =>
      have hcreate := s.sends_create domain profile (.scripted label script)
      simp only [perform]
      split <;> rename_i heq <;> rw [heq] at hcreate <;> exact hcreate
  | addEntity owner kind topicName typeName locators copies =>
      exact s.sends_addEntities owner kind topicName typeName locators copies _
  | removeEntity owner id =>
      simp only [perform]
      cases hr : s.fabric.removeEntity owner id with
      | ok fabric =>
          obtain ⟨m, e, hm, he, _⟩ := Fabric.removeEntity_eq_ok hr
          exact Fabric.Performs.queue_grows (.withdraw hm he hr)
      | error e => exact .refl s
  | updateQos k =>
      simp only [perform]
      cases hr : s.fabric.updateQos k with
      | ok fabric => exact Fabric.Performs.queue_grows (.changeQos hr)
      | error e => exact .refl s
  | close k => exact s.sends_close k
  | delete k =>
      have hdelete := s.sends_delete k
      simp only [perform]
      split <;> rename_i heq <;> rw [heq] at hdelete <;> exact hdelete
  | failNextCreate => exact .refl s
  | refuseDeletes on => exact .refl s
  | contains k => exact .refl s
  | isEnabled k => exact .refl s
  | count domain => exact .refl s
  | panic => exact .refl s

theorem sends_takeTurn (s : Site) (label : String) (turn : List Command) :
    s.Sends (s.takeTurn label turn) := by
  induction turn generalizing s with
  | nil => exact .refl s
  | cons c turn ih =>
      by_cases hpanic : c = .panic
      · subst hpanic
        exact .refl s
      · simp only [takeTurn]
        exact (s.sends_perform c).trans (ih ((s.perform c).1.note _))

theorem sends_respond (s : Site) (call : Call) : s.Sends (s.respond call) := by
  unfold respond
  split
  · exact s.sends_delete _
  · exact .refl s

theorem sends_hear (s : Site) (h : Handle) (l : Listener) (n : Notification) :
    s.Sends (s.hear h l n) := by
  cases l with
  | discovery l =>
      rcases hr : l.receive n with ⟨l', call⟩
      have hpublish : s.Sends ((s.setListener h (.discovery l')).notePublished l l') := by
        rw [Sends, fabric_notePublished]
        exact List.prefix_rfl
      simp only [hear, hr]
      cases call with
      | none => exact hpublish
      | some call =>
          exact hpublish.trans (sends_respond
            (((s.setListener h (.discovery l')).notePublished l l').note (sighting h call)) call)
  | recovery target matched =>
      simp only [hear]
      split
      · exact .refl s
      · exact sends_delete (s.setListener h _) _
  | scripted label script => exact sends_takeTurn (s.setListener h _) label _

/-- A delivery that is made takes the one that is due, and else only adds to the queue. -/
theorem sends_of_step? {d : Delivery} {fabric : Fabric}
    (hn : s.fabric.next? = some (d, fabric)) (hstep : s.step? = some s') :
    fabric.queue.toList <+: s'.fabric.queue.toList := by
  simp only [step?, hn, Option.map_some, Option.some.injEq] at hstep
  subst hstep
  unfold deliver
  split
  · split
    · exact List.prefix_rfl
    · exact sends_hear (({ s with fabric }).note _) _ _ _
  · exact List.prefix_rfl

/-! ## While a recovery waits -/

section Waiting

variable {scout k : Handle} {target : GuidPrefix} {matched : Nat}

/-- Whether the delivery that is due tells a recovery participant of somebody that it is to
delete. -/
def Discovers (scout : Handle) (target : GuidPrefix) (k : Handle) (s : Site) : Prop :=
  ∃ d fabric, s.fabric.next? = some (d, fabric) ∧ d.target = scout ∧
    discovers? target d.notification = some k

/-- Whatever listeners do meanwhile, word that is on its way comes to be due, or is on its way
still. -/
theorem Drains.discovers (h : Drains s s') (hk : k ∈ s.fabric.pending target scout) :
    k ∈ s'.fabric.pending target scout ∨ ∃ before after, Drains s before ∧
      before.Discovers scout target k ∧ before.step? = some after ∧ Drains after s' := by
  induction h with
  | refl => exact .inl hk
  | @head s s₁ s' hstep hrest ih =>
      obtain ⟨⟨d, fabric⟩, hn, _⟩ := Option.map_eq_some_iff.1 hstep
      obtain ⟨d', hd', hword⟩ := Fabric.mem_pending.1 hk
      rw [(Fabric.next?_eq_some hn).1] at hd'
      rcases List.mem_cons.1 hd' with rfl | hd'
      · exact .inr ⟨s, s₁, .refl s, ⟨d', fabric, hn, hword⟩, hstep, hrest⟩
      · have hlater : k ∈ fabric.pending target scout := Fabric.mem_pending.2 ⟨d', hd', hword⟩
        apply (ih (Fabric.pending_subset (sends_of_step? hn hstep) hlater)).imp_right
        rintro ⟨before, after, hdrains, hdue⟩
        exact ⟨before, after, .head hstep hdrains, hdue⟩

/-- Whoever word is due of is gone once it is delivered, if the recovery participant takes part and
deletions are accepted. -/
theorem Discovers.isEnabled (h : s.Discovers scout target k)
    (hl : s.listeners.find? scout = some (.recovery target matched))
    (hen : s.fabric.isEnabled scout = true) (haccepts : s.fabric.refuseDeletes = false)
    (hstep : s.step? = some s') : s'.fabric.isEnabled k = false := by
  obtain ⟨d, fabric, hn, rfl, hdiscovers⟩ := h
  exact isEnabled_of_discovers hn hen hl hdiscovers haccepts hstep

end Waiting

section Recovering

variable {members : OrderedMap Handle Member} {target : GuidPrefix} {scout : Handle}
  {killed rest : List Handle}

theorem Recovering.drains (h : s.Recovering members target scout killed rest)
    (hscout : ∃ m, members.find? scout = some m ∧ m.enabled = true)
    (hout : scout ∉ killed ++ rest) (hnodup : (killed ++ rest).Nodup)
    (hthere : ∀ k ∈ killed ++ rest, ∃ m, members.find? k = some m) (hdrains : Drains s s') :
    ∃ killed' rest', killed' ++ rest' = killed ++ rest ∧
      s'.Recovering members target scout killed' rest' := by
  induction hdrains generalizing killed rest with
  | refl => exact ⟨killed, rest, rfl, h⟩
  | head hstep _ ih =>
      obtain ⟨killed', rest', hsplit, h'⟩ := h.step hscout hout hnodup hthere hstep
      rw [← hsplit] at hout hnodup hthere ⊢
      exact ih h' hout hnodup hthere

end Recovering

/-! ## The record -/

/-- Whether the record of a domain is that of a process which exists. -/
def HasLiveRecord (s : Site) (store : Store) (domain : UInt32) : Prop :=
  ∃ record, store.load s.storage domain = .ok (some record) ∧
    s.processes.isAlive record.pid = true

/-- The record of a process which exists goes only if somebody was matched. -/
theorem HasLiveRecord.matched {store : Store} {domain : UInt32} (h : s.HasLiveRecord store domain)
    {matched : Nat}
    (hgone : store.load (s.settleRecord store domain matched).storage domain = .ok none) :
    0 < matched := by
  obtain ⟨record, hload, halive⟩ := h
  by_contra hmatched
  have hstale : ¬ s.HasStaleRecord store domain := by
    rintro ⟨record', hload', hdead⟩
    rw [hload] at hload'
    cases hload'
    rw [halive] at hdead
    cases hdead
  rw [settleRecord_of_keeps hmatched hstale, hload] at hgone
  cases hgone

theorem HasLiveRecord.of_same {store : Store} {domain : UInt32}
    (h : s.HasLiveRecord store domain) (hsame : s.SameRecords s') :
    s'.HasLiveRecord store domain := by
  rw [HasLiveRecord, hsame.storage, hsame.processes]
  exact h

end Site

namespace Context

open Site

/-- Whether a recovery comes to somebody with one of the deliveries that are made while its
participant waits. -/
structure ComesTo (c : Context) (t : Timing) (s : Site) (domain : UInt32) (k : Handle)
    (before after : Site) : Prop where
  waits : Drains (c.seeking s domain) before
  due : before.Discovers s.fabric.nextHandle c.config.serverPrefix k
  delivers : before.step? = some after
  rest : Drains after (c.scouted t s domain)

variable {c : Context} {t : Timing} {s : Site} {domain : UInt32}

/-- If nobody meddles with a recovery, its participant takes part and deletions are accepted all
the while. -/
theorem undisturbed_of_drains (hs : s.Sound) (haccepts : s.fabric.refuseDeletes = false)
    (hcreate : s.fabric.failNextCreate = false) (hquiet : s.QuietBut none) {s' : Site}
    (hdrains : Drains (c.seeking s domain) s') :
    s'.fabric.isEnabled s.fabric.nextHandle = true ∧ s'.fabric.refuseDeletes = false := by
  have hjoined := s.fabric.find?_join_nextHandle domain c.config.recoveryQos.profile true
  have hout := hs.fabric.nextHandle_not_mem_carriers domain c.config.serverPrefix
  have hbegin := recovering_create hs haccepts hcreate hquiet domain c.config.recoveryQos.profile
    c.config.serverPrefix
  obtain ⟨killed, rest, hsplit, hmeanwhile⟩ := hbegin.drains ⟨_, hjoined, rfl⟩ hout
    (s.fabric.nodup_carriers domain c.config.serverPrefix)
    (fun _ hk => hs.fabric.find?_join_of_mem_carriers hk domain _) hdrains
  have hspared : s.fabric.nextHandle ∉ killed := by
    intro hkilled
    apply hout
    rw [List.nil_append] at hsplit
    rw [← hsplit]
    exact List.mem_append_left rest hkilled
  have hstill := (hmeanwhile.member s.fabric.nextHandle).trans (if_neg hspared)
  exact ⟨Fabric.isEnabled_iff.2 ⟨_, hstill.trans hjoined, rfl⟩, hmeanwhile.accepts⟩

/-- A recovery whose participant cannot be created leaves all records. -/
theorem storage_stop_of_refused (hnot : c.serverOn? domain = none)
    (hrefused : s.fabric.failNextCreate = true) : (c.stop t s domain).2.1.storage = s.storage := by
  simp only [stop, hnot, recover, create_of_refused hrefused]

theorem failNextCreate_of_forgotten (hnot : c.serverOn? domain = none)
    (hlive : s.HasLiveRecord c.store domain)
    (hgone : c.store.load (c.stop t s domain).2.1.storage domain = .ok none) :
    s.fabric.failNextCreate = false := by
  by_contra hrefused
  obtain ⟨record, hload, _⟩ := hlive
  rw [storage_stop_of_refused hnot (by simpa using hrefused), hload] at hgone
  cases hgone

/-- A recovery that has matched nobody leaves the record of a process that exists. -/
theorem matched_of_forgotten (hnot : c.serverOn? domain = none)
    (hcreate : s.fabric.failNextCreate = false) (hlive : s.HasLiveRecord c.store domain)
    (hgone : c.store.load (c.stop t s domain).2.1.storage domain = .ok none) :
    ∃ matched, 0 < matched ∧ (c.stop t s domain).2.2 = .ok (.recoveryAttempted matched) := by
  have hlive' := hlive.of_same (c.sameRecords_recovered t s domain)
  rw [stop_eq_settleRecord hnot hcreate] at hgone
  refine ⟨_, hlive'.matched hgone, ?_⟩
  simp only [stop, hnot, recover_of_accepted hcreate]

/-- A recovery that waits until all is delivered comes to everybody who carries the server prefix in
the domain. -/
theorem exists_comesTo (hs : s.Sound) (hcreate : s.fabric.failNextCreate = false)
    (hwait : t.Settles .waiting) {k : Handle}
    (hk : k ∈ s.fabric.carriers domain c.config.serverPrefix) :
    ∃ before after, c.ComesTo t s domain k before after := by
  have hword : k ∈ (c.seeking s domain).fabric.pending c.config.serverPrefix
      s.fabric.nextHandle := by
    rw [seeking, create_of_accepted hcreate]
    exact (Fabric.pending_join hs.fabric domain c.config.recoveryQos.profile _).symm ▸ hk
  have hscouted : Drains (c.seeking s domain) (c.scouted t s domain) := t.drains .waiting _
  rcases hscouted.discovers hword with hstill | ⟨before, after, hwaits, hdue, hdelivers, hrest⟩
  · obtain ⟨d, hd, _⟩ := Fabric.mem_pending.1 hstill
    rw [scouted, hwait] at hd
    cases hd
  · exact ⟨before, after, hwaits, hdue, hdelivers, hrest⟩

/-- Whom a recovery comes to is gone after it, if its participant takes part then and deletions are
accepted. -/
theorem ComesTo.isEnabled_stop {k : Handle} {before after : Site}
    (h : c.ComesTo t s domain k before after) (hnot : c.serverOn? domain = none)
    (hcreate : s.fabric.failNextCreate = false) (hk : s.fabric.Issued k)
    (hen : before.fabric.isEnabled s.fabric.nextHandle = true)
    (haccepts : before.fabric.refuseDeletes = false) :
    (c.stop t s domain).2.1.fabric.isEnabled k = false := by
  have hjoin : Moves s (c.seeking s domain) := (Pace.create s domain c.config.recoveryQos.profile
    (.recovery c.config.serverPrefix)).moves
  have hmade := (steps_of_step? h.delivers).moves
  obtain ⟨_, matched, hl⟩ := c.find?_listeners_scout hcreate domain h.waits.steps.moves
  have hgone := h.due.isEnabled hl hen haccepts h.delivers
  have hbefore : Moves s after := (hjoin.trans h.waits.steps.moves).trans hmade
  have hleft : Moves after (c.recovered t s domain) :=
    h.rest.steps.moves.trans (paces_delete t .deleted _ _).moves
  rw [stop_eq_settleRecord hnot hcreate, fabric_settleRecord]
  exact hleft.isLater.isEnabled_eq_false (hbefore.isLater.issued hk) hgone

end Context

namespace Deployment

variable {d : Deployment} {op : Operation} {c : Context} {domain : UInt32}

/-- A recovery clears the record of a process that exists only if it has matched somebody. If it
waits until all is delivered, it comes to everybody who carries the server prefix in the domain;
and whose deletion is accepted when it comes to them is gone, as long as the recovery participant
is there to ask for it. -/
theorem AsksToStop.forgets_only_stopped (hd : d.Reachable) (hasks : d.AsksToStop op c domain)
    (hnot : c.serverOn? domain = none) (hlive : d.site.HasLiveRecord c.store domain)
    {t : Timing} (hgone : c.store.load (d.act t op).1.site.storage domain = .ok none) :
    (∃ matched, 0 < matched ∧
      (c.stop t d.site domain).2.2 = .ok (.recoveryAttempted matched)) ∧
    ∀ k ∈ d.site.fabric.carriers domain c.config.serverPrefix,
      (t.Settles .waiting → ∃ before after, c.ComesTo t d.site domain k before after) ∧
      ∀ before after, c.ComesTo t d.site domain k before after →
        before.fabric.isEnabled d.site.fabric.nextHandle = true →
          before.fabric.refuseDeletes = false → (d.act t op).1.site.fabric.isEnabled k = false := by
  rw [hasks.site_act] at hgone ⊢
  have hcreate := Context.failNextCreate_of_forgotten hnot hlive hgone
  refine ⟨Context.matched_of_forgotten hnot hcreate hlive hgone, fun k hk => ⟨fun hwait => ?_, ?_⟩⟩
  · exact Context.exists_comesTo hd.sound hcreate hwait hk
  · intro before after hcomes hen haccepts
    obtain ⟨m, hm, _⟩ := Fabric.mem_carriers.1 hk
    exact hcomes.isEnabled_stop hnot hcreate (hd.sound.fabric.member hm) hen haccepts

/-- The context that runs no server while another one does. -/
def standing : Context := ⟨Config.default (.ofString "state"), .memory, none⟩

theorem bystander_forgets : withBystander.AsksToStop (.stop "B" 1) standing 1 ∧
    withBystander.site.HasLiveRecord standing.store 1 ∧
    standing.store.load (withBystander.act .prompt (.stop "B" 1)).1.site.storage 1 = .ok none ∧
    (withBystander.act .prompt (.stop "B" 1)).1.site.fabric.isEnabled ⟨1⟩ = false := by
  have hd : withBystander.Reachable := ⟨_, _, _, run_performAll _ _⟩
  have hasks : withBystander.AsksToStop (.stop "B" 1) standing 1 := .inl ⟨"B", rfl, by cbv⟩
  have hlive : withBystander.site.HasLiveRecord standing.store 1 :=
    ⟨⟨1, 1, Config.defaultServerPrefix, 0⟩, by cbv, by cbv⟩
  have hgone : standing.store.load (withBystander.act .prompt (.stop "B" 1)).1.site.storage 1 =
      .ok none := by cbv
  have hcarriers : withBystander.site.fabric.carriers 1 Config.defaultServerPrefix = [⟨1⟩] := by cbv
  obtain ⟨_, hcomes⟩ := hasks.forgets_only_stopped hd rfl hlive hgone
  obtain ⟨hwaited, hstops⟩ := hcomes ⟨1⟩ (hcarriers ▸ List.mem_singleton_self _)
  obtain ⟨before, after, hcome⟩ := hwaited (Timing.settles_prompt _)
  obtain ⟨hen, haccepts⟩ :=
    Context.undisturbed_of_drains hd.sound (by cbv) (by cbv) quiet_withBystander hcome.waits
  exact ⟨hasks, hlive, hgone, hstops before after hcome hen haccepts⟩

/-- The same, where deletions are refused. -/
def unyielding : Deployment := withBystander.performAll [.command (.refuseDeletes true)]

/-- A recovery that is refused the deletion of a server clears its record all the same. -/
theorem not_forgets_only_stopped : ¬ ∀ (d : Deployment) (op : Operation) (c : Context)
    (domain : UInt32), d.Reachable → d.AsksToStop op c domain → c.serverOn? domain = none →
      d.site.HasLiveRecord c.store domain →
        c.store.load (d.act .prompt op).1.site.storage domain = .ok none →
          ∀ k ∈ d.site.fabric.carriers domain c.config.serverPrefix,
            (d.act .prompt op).1.site.fabric.isEnabled k = false := by
  intro halways
  have hbefore : withBystander.Reachable := ⟨_, _, _, run_performAll _ _⟩
  have hd : unyielding.Reachable := hbefore.run (run_performAll _ _)
  have hasks : unyielding.AsksToStop (.stop "B" 1) standing 1 := .inl ⟨"B", rfl, by cbv⟩
  have hlive : unyielding.site.HasLiveRecord standing.store 1 :=
    ⟨⟨1, 1, Config.defaultServerPrefix, 0⟩, by cbv, by cbv⟩
  have hcarriers : unyielding.site.fabric.carriers 1 Config.defaultServerPrefix = [⟨1⟩] := by cbv
  have hstill : (unyielding.act .prompt (.stop "B" 1)).1.site.fabric.isEnabled ⟨1⟩ = true := by cbv
  rw [halways _ _ _ _ hd hasks rfl hlive (by cbv) ⟨1⟩ (hcarriers ▸ List.mem_singleton_self _)]
    at hstill
  cases hstill

end Deployment

end Rendezvous
