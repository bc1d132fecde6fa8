import Rendezvous.Proofs.Departures
import Rendezvous.Proofs.Recovery

/-!
# What a recovery leaves behind

A recovery asks for its participant to be deleted, and says the same whether it was or not.
Main statement: a participant that goes with its recovery never hears of anybody again; one
whose deletion is refused stays, and deletes every server that it discovers later.
-/

namespace Rendezvous

namespace Context

open Site

variable {c : Context} {s : Site}

theorem stop_eq_settleRecord {domain : UInt32} (hnot : c.serverOn? domain = none)
    (hcreate : s.fabric.failNextCreate = false) (t : Timing) :
    (c.stop t s domain).2.1 = (c.recovered t s domain).settleRecord c.store domain
      ((c.recovered t s domain).matchedBy s.fabric.nextHandle) := by
  simp only [stop, hnot, recover_of_accepted hcreate]

theorem moves_recovered (c : Context) (t : Timing) (s : Site) (domain : UInt32) :
    Moves (c.seeking s domain) (c.recovered t s domain) :=
  (paces_pause t .waiting _).moves.trans (paces_delete t .deleted _ _).moves

/-- The participant of a recovery is there, and listens for servers. -/
theorem find?_listeners_scout (c : Context) (hcreate : s.fabric.failNextCreate = false)
    (domain : UInt32) {s' : Site} (hrow : Moves (c.seeking s domain) s') :
    s'.fabric.Issued s.fabric.nextHandle ∧ ∃ matched,
      s'.listeners.find? s.fabric.nextHandle = some (.recovery c.config.serverPrefix matched) := by
  rw [seeking, create_of_accepted hcreate] at hrow
  have hissued : (((({ s with fabric := (s.fabric.join domain c.config.recoveryQos.profile
      true).1 }).setListener s.fabric.nextHandle (.recovery c.config.serverPrefix 0)).noteJoined
        s.fabric.nextHandle c.config.recoveryQos.profile domain)).fabric.Issued
          s.fabric.nextHandle := Nat.lt_succ_self _
  obtain ⟨l, hl, hlater⟩ := hrow.listener hissued
    ((OrderedMap.find?_insert _ _ _ _).trans (if_pos rfl))
  refine ⟨hrow.isLater.issued hissued, ?_⟩
  cases hlater with
  | @recovery _ matched => exact ⟨matched, hl⟩

end Context

namespace Site

/-- A recovery participant that takes part deletes whoever it discovers with its prefix. -/
theorem isEnabled_of_discovers {s s' : Site} {d : Delivery} {fabric : Fabric}
    {target : GuidPrefix} {matched : Nat} {k : Handle}
    (hn : s.fabric.next? = some (d, fabric)) (hen : s.fabric.isEnabled d.target = true)
    (hl : s.listeners.find? d.target = some (.recovery target matched))
    (hdiscovers : discovers? target d.notification = some k)
    (haccepts : s.fabric.refuseDeletes = false) (hstep : s.step? = some s') :
    s'.fabric.isEnabled k = false := by
  have hmade : s' = ((({ s with fabric }.note (.delivered d none)).setListener d.target
      (.recovery target (matched + 1))).delete k).1 := by
    rw [← Fabric.isEnabled_of_next? hn] at hen
    simp only [step?, hn, Option.map_some, Option.some.injEq] at hstep
    simp only [deliver, hen, if_true, hl, hear, hdiscovers, Listener.label?] at hstep
    exact hstep.symm
  rw [hmade]
  apply isEnabled_delete
  show fabric.refuseDeletes = false
  rw [(Fabric.next?_eq_some hn).2]
  exact haccepts

end Site

namespace Deployment

variable {d : Deployment} {op : Operation} {c : Context} {domain : UInt32}

/-- The participant of a recovery goes with it if its deletion is accepted, and then nothing becomes
of it any more. If it stays, it goes on deleting every server that it discovers. -/
theorem AsksToStop.scout_retires (hasks : d.AsksToStop op c domain)
    (hnot : c.serverOn? domain = none) (hcreate : d.site.fabric.failNextCreate = false)
    (t : Timing) :
    ((c.scouted t d.site domain).fabric.refuseDeletes = false →
      (d.act t op).1.site.fabric.isEnabled d.site.fabric.nextHandle = false) ∧
    ((d.act t op).1.site.fabric.isEnabled d.site.fabric.nextHandle = false →
      (d.act t op).1.Retired d.site.fabric.nextHandle) ∧
    ∀ d', Run (d.act t op).1 d' → ∀ delivery fabric k s,
      d'.site.fabric.next? = some (delivery, fabric) →
      delivery.target = d.site.fabric.nextHandle →
      Site.discovers? c.config.serverPrefix delivery.notification = some k →
      d'.site.fabric.isEnabled d.site.fabric.nextHandle = true →
      d'.site.fabric.refuseDeletes = false → d'.site.step? = some s →
        s.fabric.isEnabled k = false := by
  have hsite := hasks.site_act t
  rw [Context.stop_eq_settleRecord hnot hcreate] at hsite
  have hrecovered : Site.Moves (c.seeking d.site domain) (d.act t op).1.site := by
    rw [hsite]
    exact (c.moves_recovered t d.site domain).trans (Site.paces_settleRecord _ _ _ _).moves
  refine ⟨fun haccepts => ?_, fun hgone => ?_, ?_⟩
  · have hissued := (c.find?_listeners_scout hcreate domain (Site.paces_pause t .waiting _).moves).1
    have hdeleted := Site.isEnabled_delete haccepts d.site.fabric.nextHandle
    have hlater := (Site.Pace.delete (c.scouted t d.site domain)
      d.site.fabric.nextHandle).moves.isLater
    have hleft := (Site.paces_pause t .deleted
      ((c.scouted t d.site domain).delete d.site.fabric.nextHandle).1).moves.isLater
    rw [hsite, Site.fabric_settleRecord]
    exact hleft.isEnabled_eq_false (hlater.issued hissued) hdeleted
  · exact retired_of_isEnabled_eq_false
      (c.find?_listeners_scout hcreate domain hrecovered).1 hgone
  · intro d' hrun delivery fabric k s hn htarget hdiscovers hen haccepts hstep
    obtain ⟨_, matched, hl⟩ :=
      c.find?_listeners_scout hcreate domain (hrecovered.trans (Run.moves hrun))
    rw [← htarget] at hen hl
    exact Site.isEnabled_of_discovers hn hen hl hdiscovers haccepts hstep

/-- A context that runs no server; deletions may be refused. -/
def withoutServer (refuseDeletes : Bool) : Deployment :=
  (new (Site.new .empty ⟨1, [], 0⟩) .memory).performAll
    [.newContext "A" (Config.default (.ofString "state")),
      .command (.refuseDeletes refuseDeletes)]

theorem find?_withoutServer (refuseDeletes : Bool) :
    (withoutServer refuseDeletes).contexts.find? "A" =
      some ⟨Config.default (.ofString "state"), .memory, none⟩ := by
  cases refuseDeletes <;> cbv

theorem asksToStop_withoutServer (refuseDeletes : Bool) :
    (withoutServer refuseDeletes).AsksToStop (.stop "A" 1)
      ⟨Config.default (.ofString "state"), .memory, none⟩ 1 :=
  .inl ⟨"A", rfl, find?_withoutServer refuseDeletes⟩

theorem lone_scout_retires : ((withoutServer false).act .late (.stop "A" 1)).1.Retired ⟨1⟩ := by
  have hcreate : (withoutServer false).site.fabric.failNextCreate = false := by cbv
  have hscout : (withoutServer false).site.fabric.nextHandle = ⟨1⟩ := by cbv
  obtain ⟨hgone, hretired, _⟩ := (asksToStop_withoutServer false).scout_retires rfl hcreate .late
  rw [← hscout]
  exact hretired (hgone (by cbv))

/-- The participant of a recovery that could not be deleted takes part still, and deletes the server
that is started next. -/
theorem not_scout_retires :
    (¬ ∀ (d : Deployment) (t : Timing) (op : Operation) (c : Context) (domain : UInt32),
      d.Reachable → d.AsksToStop op c domain → c.serverOn? domain = none →
        d.site.fabric.failNextCreate = false →
          (d.act t op).1.site.fabric.isEnabled d.site.fabric.nextHandle = false) ∧
    (((withoutServer true).act .prompt (.stop "A" 1)).1.performAll [.command (.refuseDeletes false),
      .start "A" 1 .empty]).site.fabric.isEnabled ⟨2⟩ = false := by
  constructor
  · intro halways
    have hd : (withoutServer true).Reachable := ⟨_, _, _, run_performAll _ _⟩
    have hgone := halways _ .prompt _ _ _ hd (asksToStop_withoutServer true) rfl (by cbv)
    have hstays : ((withoutServer true).act .prompt (.stop "A" 1)).1.site.fabric.isEnabled
        (withoutServer true).site.fabric.nextHandle = true := by cbv
    rw [hgone] at hstays
    cases hstays
  · cbv

end Deployment

end Rendezvous
