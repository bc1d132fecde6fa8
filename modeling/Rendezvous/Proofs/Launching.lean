import Rendezvous.Proofs.Deliveries
import Rendezvous.Proofs.Dispatching
import Rendezvous.Proofs.Evictions

/-!
# What a start leaves behind

A start takes down the server that its context holds before it is known whether another one can
be created. Closing the old one cannot fail and deleting it can; its record is cleared in any
case, which may be the one that the new server writes anew. Main statement: where nobody meddles
and the store does not fail, a start gives the new server the next handle or says that it could
not be created, and either way only what belongs to the two servers has changed.
-/

namespace Rendezvous

def Member.closed (m : Member) : Member := { m with enabled := false }

namespace Fabric

structure SameSettings (f f' : Fabric) : Prop where
  nextHandle : f'.nextHandle = f.nextHandle
  failNextCreate : f'.failNextCreate = f.failNextCreate
  refuseDeletes : f'.refuseDeletes = f.refuseDeletes

theorem SameSettings.refl (f : Fabric) : f.SameSettings f := ⟨rfl, rfl, rfl⟩

theorem SameSettings.trans {f f' f'' : Fabric} (h : f.SameSettings f') (h' : f'.SameSettings f'') :
    f.SameSettings f'' :=
  ⟨h'.nextHandle.trans h.nextHandle, h'.failNextCreate.trans h.failNextCreate,
    h'.refuseDeletes.trans h.refuseDeletes⟩

theorem sameSettings_change (f : Fabric) (k : Handle) (m : Member) (after : Option Member)
    (ns : List Notification) : f.SameSettings (f.change k m after ns) := by
  simp only [change]
  split <;> exact ⟨rfl, rfl, rfl⟩

theorem sameSettings_of_next? {f f' : Fabric} {d : Delivery} (hn : f.next? = some (d, f')) :
    f.SameSettings f' := by
  rw [(next?_eq_some hn).2]
  exact ⟨rfl, rfl, rfl⟩

end Fabric

namespace Site

variable {s s' : Site} {k k' : Handle}

/-! ## Taking a participant down -/

theorem sameSettings_close (s : Site) (k : Handle) :
    s.fabric.SameSettings (s.close k).fabric := by
  unfold close
  split
  · rename_i hen
    obtain ⟨m, hm, hen⟩ := Fabric.isEnabled_iff.1 hen
    rw [fabric_note, Fabric.close_of_enabled hm hen]
    exact Fabric.sameSettings_change _ _ _ _ _
  · exact .refl _

theorem find?_members_close (s : Site) (k k' : Handle) :
    (s.close k).fabric.members.find? k' =
      if k' = k then (s.fabric.members.find? k).map .closed else s.fabric.members.find? k' := by
  unfold close
  split
  · rename_i hen
    obtain ⟨m, hm, hen⟩ := Fabric.isEnabled_iff.1 hen
    rw [fabric_note, Fabric.close_of_enabled hm hen, Fabric.members_change,
      OrderedMap.find?_alter, hm]
    rfl
  · rename_i hen
    split
    · rename_i hk
      rw [hk]
      cases hm : s.fabric.members.find? k with
      | none => rfl
      | some m =>
          have hclosed : m.enabled = false := by simpa [Fabric.isEnabled, hm] using hen
          rw [Option.map_some, Member.closed, ← hclosed]
    · rfl

theorem sameSettings_delete (s : Site) (k : Handle) :
    s.fabric.SameSettings (s.delete k).1.fabric := by
  unfold delete
  split
  · rename_i hdelete
    obtain ⟨_, m, _, rfl⟩ := Fabric.delete_eq_ok hdelete
    exact Fabric.sameSettings_change _ _ _ _ _
  · exact .refl _

theorem find?_members_delete (s : Site) (k k' : Handle) :
    (s.delete k).1.fabric.members.find? k' =
      if k' = k ∧ s.fabric.refuseDeletes = false then none else s.fabric.members.find? k' := by
  unfold delete
  split
  · rename_i hdelete
    obtain ⟨haccepts, m, hm, rfl⟩ := Fabric.delete_eq_ok hdelete
    simp only [fabric_note, Fabric.members_change, OrderedMap.find?_alter, haccepts, and_true]
  · rename_i e hdelete
    split
    · rename_i hboth
      obtain ⟨rfl, haccepts⟩ := hboth
      cases hm : s.fabric.members.find? k' with
      | none => rfl
      | some m =>
          rw [Fabric.delete_of_find? haccepts hm] at hdelete
          cases hdelete
    · rfl

theorem isEnabled_of_delete (hen : (s.delete k).1.fabric.isEnabled k' = true) :
    s.fabric.isEnabled k' = true := by
  rw [Fabric.isEnabled, find?_members_delete] at hen
  split at hen
  · cases hen
  · exact hen

theorem QuietBut.delete {except : Option Handle} (hq : s.QuietBut except) (k : Handle) :
    (s.delete k).1.QuietBut except :=
  hq.transfer fun k' hne hen => ⟨hne, isEnabled_of_delete hen, by rw [listeners_delete]⟩

theorem QuietBut.close {except : Option Handle} (hq : s.QuietBut except) (k : Handle) :
    (s.close k).QuietBut except := by
  refine hq.transfer fun k' hne hen => ⟨hne, ?_, by rw [listeners_close]⟩
  by_cases hk : k' = k
  · rw [hk, isEnabled_close] at hen
    cases hen
  · rwa [Fabric.isEnabled, find?_members_close, if_neg hk] at hen

/-- Quiet listeners leave alone what the host asks to be refused, and stay quiet. -/
theorem QuietBut.settings_drains (hq : s.QuietBut none) (h : s.Drains s') :
    s.fabric.SameSettings s'.fabric ∧ s'.QuietBut none := by
  induction h with
  | refl => exact ⟨.refl _, hq⟩
  | head hstep _ ih =>
      obtain ⟨d, fabric, hn, rfl⟩ := exists_deliver_of_step? hstep
      obtain ⟨hfabric, hquiet, _⟩ := hq.deliver hn (Option.some_ne_none _)
      obtain ⟨hsettings, hlater⟩ := ih hquiet
      rw [hfabric] at hsettings
      exact ⟨(Fabric.sameSettings_of_next? hn).trans hsettings, hlater⟩

/-- Whether a participant was taken down, as far as the fabric lets go of it, while nobody else
was touched. -/
structure TakesDown (k : Handle) (s s' : Site) : Prop where
  settings : s.fabric.SameSettings s'.fabric
  own : s'.fabric.members.find? k =
    if s.fabric.refuseDeletes then (s.fabric.members.find? k).map .closed else none
  other : ∀ k', k' ≠ k → s'.fabric.members.find? k' = s.fabric.members.find? k'
  quiet : s'.QuietBut none

theorem QuietBut.takesDown (hq : s.QuietBut none) (t : Timing) (k : Handle) :
    TakesDown k s (t.pause .deleted ((t.pause .closed (s.close k)).delete k).1) := by
  have hclose := hq.close k
  obtain ⟨hsettings, hquiet⟩ := hclose.settings_drains (t.drains .closed _)
  have hdelete := hquiet.delete k
  obtain ⟨hsettings', hquiet'⟩ := hdelete.settings_drains (t.drains .deleted _)
  have hclosed := (s.sameSettings_close k).trans hsettings
  have hmembers (k' : Handle) :
      (t.pause .deleted ((t.pause .closed (s.close k)).delete k).1).fabric.members.find? k' =
        if k' = k ∧ s.fabric.refuseDeletes = false then none
        else (s.close k).fabric.members.find? k' := by
    rw [(hdelete.drains (t.drains .deleted _)).1, find?_members_delete, hclosed.refuseDeletes,
      (hclose.drains (t.drains .closed _)).1]
  refine ⟨(hclosed.trans (sameSettings_delete _ k)).trans hsettings', ?_, fun k' hne => ?_, hquiet'⟩
  · rw [hmembers, find?_members_close, if_pos rfl]
    cases s.fabric.refuseDeletes <;> simp
  · rw [hmembers, find?_members_close, if_neg hne, if_neg fun hboth => hne hboth.1]

end Site

/-! ## What a new server does -/

/-- Whether no callback asks for a participant to be deleted. -/
def Registry.IsQuiet (r : Registry) : Prop :=
  ∀ category b, r.binding category = some b → b.callback.response ≠ .deletes

namespace Site

variable {s s' : Site}

theorem fabric_delete_congr (h : s'.fabric = s.fabric) (k : Handle) :
    (s'.delete k).1.fabric = (s.delete k).1.fabric := by
  simp only [delete, h]
  split
  · rfl
  · exact h

theorem fabric_respond_of_deletes {call : Call}
    (h : call.binding.callback.response = .deletes) (s : Site) :
    (s.respond call).fabric = (s.delete (victim call.event)).1.fabric := by
  obtain ⟨⟨callback, context⟩, e⟩ := call
  cases callback with
  | native label response =>
      cases (show response = .deletes from h)
      rfl
  | foreign function => cases h

/-- A listener that calls what is bound deletes one participant at most, the one described. -/
theorem hear_discovery_cases (s : Site) (h : Handle) (l : DiscoveryListener) (n : Notification) :
    (s.hear h (.discovery l) n).fabric = s.fabric ∨
      ∃ e, n.event? = some e ∧ ¬ l.registry.IsQuiet ∧
        (s.hear h (.discovery l) n).fabric = (s.delete (victim e)).1.fabric := by
  rcases hr : l.receive n with ⟨l', call⟩
  have hpublished : ((s.setListener h (.discovery l')).notePublished l l').fabric = s.fabric :=
    fabric_notePublished _ _ _
  simp only [hear, hr]
  cases call with
  | none => exact .inl hpublished
  | some call =>
      simp only [invoke]
      by_cases hdeletes : call.binding.callback.response = .deletes
      · have hbound := DiscoveryListener.binding_receive hr
        refine .inr ⟨call.event, DiscoveryListener.event_receive hr,
          fun hquiet => hquiet _ _ hbound hdeletes, ?_⟩
        have hcalled : (((s.setListener h (.discovery l')).notePublished l l').note
            (sighting h call)).fabric = s.fabric := hpublished
        exact (fabric_respond_of_deletes hdeletes _).trans (fabric_delete_congr hcalled _)
      · rw [respond_of_ne_deletes hdeletes]
        exact .inl hpublished

theorem victim_ne {d : Delivery} {f : Fabric} (hrouted : f.Routed d) (htarget : d.target ≠ .null)
    {e : Event} (he : d.notification.event? = some e) : victim e ≠ d.target := by
  have hrecord := Notification.record_event? he
  rw [victim, hrecord]
  cases hsubject : d.notification.subject with
  | participant k profile =>
      have hsource := hrouted.subject hsubject
      exact fun hsame => hrouted.ne (hsource.symm.trans hsame)
  | entity owner e => exact htarget.symm

/-- What a delivery to a listener of this kind does to the fabric. -/
theorem deliver_discovery_cases {d : Delivery} {l : DiscoveryListener}
    (hl : s.discoveryListener? d.target = some l) :
    (s.deliver d).fabric = s.fabric ∨
      ∃ e, d.notification.event? = some e ∧ ¬ l.registry.IsQuiet ∧
        (s.deliver d).fabric = (s.delete (victim e)).1.fabric := by
  rcases deliver_eq s d with hsame | ⟨l', hl', hmakes⟩
  · exact .inl (congrArg Site.fabric hsame)
  · rw [discoveryListener?_eq_some.1 hl] at hl'
    cases hl'
    rw [hmakes]
    have hnoted : (s.note (.delivered d none)).fabric = s.fabric := rfl
    rcases hear_discovery_cases (s.note (.delivered d none)) d.target l d.notification with
      hsame | ⟨e, hevent, hloud, hdeleted⟩
    · exact .inl hsame
    · exact .inr ⟨e, hevent, hloud, hdeleted.trans (fabric_delete_congr hnoted _)⟩

/-- The site of a server that was started, while deliveries are made: the members are as they
were, but for others that its callbacks have deleted. -/
structure SettlingIn (members : OrderedMap Handle Member) (refuses : Bool) (server : Handle)
    (registry : Registry) (s : Site) : Prop where
  sound : s.Sound
  routes : s.Routes
  refuseDeletes : s.fabric.refuseDeletes = refuses
  serves : s.Serves server registry
  member : ∀ k, s.fabric.members.find? k = members.find? k ∨
    k ≠ server ∧ ¬ registry.IsQuiet ∧ refuses = false ∧ s.fabric.members.find? k = none
  quiet : s.QuietBut (some server)

section SettlingIn

variable {members : OrderedMap Handle Member} {refuses : Bool} {server : Handle}
  {registry : Registry} {d : Delivery} {fabric : Fabric}

/-- A delivery to somebody else changes nothing that matters here. -/
theorem SettlingIn.elsewhere (hs : s.SettlingIn members refuses server registry)
    (hn : s.fabric.next? = some (d, fabric)) (hmoves : Moves s ({ s with fabric }.deliver d))
    (hne : d.target ≠ server) :
    ({ s with fabric }.deliver d).SettlingIn members refuses server registry := by
  have hrest := (Fabric.next?_eq_some hn).2
  obtain ⟨hfabric, hquiet, _⟩ :=
    hs.quiet.deliver hn fun hsame => hne (Option.some.inj hsame)
  refine ⟨hmoves.sound hs.sound, hmoves.routes hs.sound hs.routes, ?_, hmoves.serves hs.serves,
    fun k => ?_, hquiet⟩
  · rw [hfabric, hrest]
    exact hs.refuseDeletes
  · rw [hfabric, hrest]
    exact hs.member k

/-- A delivery to the server makes it delete another participant at most. -/
theorem SettlingIn.hear (hs : s.SettlingIn members refuses server registry)
    (hn : s.fabric.next? = some (d, fabric)) (hmoves : Moves s ({ s with fabric }.deliver d))
    (htarget : d.target = server) (hserver : server ≠ .null) :
    ({ s with fabric }.deliver d).SettlingIn members refuses server registry := by
  have hrest := (Fabric.next?_eq_some hn).2
  have hrouted : s.fabric.Routed d := by
    apply hs.routes.queue
    rw [(Fabric.next?_eq_some hn).1]
    exact List.mem_cons_self
  obtain ⟨_, l, hl, hregistry⟩ := hs.serves
  have hafter : ({ s with fabric }.deliver d).fabric.refuseDeletes = refuses ∧
      ∀ k, ({ s with fabric }.deliver d).fabric.members.find? k = s.fabric.members.find? k ∨
        k ≠ server ∧ ¬ registry.IsQuiet ∧ refuses = false ∧
          ({ s with fabric }.deliver d).fabric.members.find? k = none := by
    rcases deliver_discovery_cases (s := { s with fabric }) (d := d) (htarget ▸ hl) with
      hsame | ⟨e, hevent, hloud, hdeleted⟩
    · rw [hsame, hrest]
      exact ⟨hs.refuseDeletes, fun _ => .inl rfl⟩
    · have hvictim : victim e ≠ server := by
        rw [← htarget] at hserver ⊢
        exact victim_ne hrouted hserver hevent
      have hsettings := sameSettings_delete { s with fabric } (victim e)
      have hrefuses : fabric.refuseDeletes = refuses := by
        rw [hrest]
        exact hs.refuseDeletes
      rw [hdeleted]
      refine ⟨hsettings.refuseDeletes.trans hrefuses, fun k => ?_⟩
      rw [find?_members_delete, hrefuses]
      by_cases hboth : k = victim e ∧ refuses = false
      · rw [if_pos hboth]
        exact .inr ⟨hboth.1 ▸ hvictim, hregistry ▸ hloud, hboth.2, rfl⟩
      · rw [if_neg hboth, hrest]
        exact .inl rfl
  obtain ⟨hrefuses, hmembers⟩ := hafter
  refine ⟨hmoves.sound hs.sound, hmoves.routes hs.sound hs.routes, hrefuses,
    hmoves.serves hs.serves, fun k => ?_, hs.quiet.transfer fun k hne hen => ?_⟩
  · rcases hmembers k with hsame | hgone
    · rw [hsame]
      exact hs.member k
    · exact .inr hgone
  · rcases hmembers k with hsame | ⟨_, _, _, hgone⟩
    · rw [Fabric.isEnabled_congr hsame] at hen
      obtain ⟨m, hm, _⟩ := Fabric.isEnabled_iff.1 hen
      have hissued : ({ s with fabric } : Site).fabric.Issued k := by
        show fabric.Issued k
        rw [hrest]
        exact hs.sound.fabric.member hm
      refine ⟨hne, hen, find?_listeners_deliver_of_ne hissued fun hk => ?_⟩
      exact hne (congrArg some (hk.trans htarget))
    · simp [Fabric.isEnabled, hgone] at hen

theorem SettlingIn.drains (hs : s.SettlingIn members refuses server registry)
    (hserver : server ≠ .null) (h : s.Drains s') :
    s'.SettlingIn members refuses server registry := by
  induction h with
  | refl => exact hs
  | head hstep _ ih =>
      have hmoves := (steps_of_step? hstep).moves
      obtain ⟨d, fabric, hn, rfl⟩ := exists_deliver_of_step? hstep
      by_cases htarget : d.target = server
      · exact ih (hs.hear hn hmoves htarget hserver)
      · exact ih (hs.elsewhere hn hmoves htarget)

end SettlingIn

end Site

/-! ## What is left of the server before -/

namespace Site

section Stores

variable {store : Store} {good : Storage → Prop} {s : Site}

theorem QuietBut.clearRecord {except : Option Handle} (hq : s.QuietBut except) (store : Store)
    (domain : UInt32) : (s.clearRecord store domain).QuietBut except := by
  unfold Site.clearRecord
  split <;> exact hq

theorem good_clearRecord (hstore : store.Reliable good) (hgood : good s.storage)
    (domain : UInt32) : good (s.clearRecord store domain).storage := by
  obtain ⟨storage, hclear, hgood', _⟩ := hstore.clear domain hgood
  simp only [clearRecord, hclear]
  exact hgood'

theorem load_saveRecord (hstore : store.Reliable good) (hgood : good s.storage)
    (record : ServerRecord) (domain : UInt32) :
    store.load (s.saveRecord store record).storage domain =
      if domain = record.domain then .ok (some record) else store.load s.storage domain := by
  obtain ⟨storage, hsave, _, hload⟩ := hstore.save record hgood
  simp only [saveRecord, hsave]
  exact hload domain

theorem fabric_saveRecord (s : Site) (store : Store) (record : ServerRecord) :
    (s.saveRecord store record).fabric = s.fabric := by
  unfold saveRecord
  split <;> rfl

end Stores

end Site

namespace Context

open Site

/-- What a start leaves of the member under a handle, before it creates another one. -/
def leaves (c : Context) (f : Fabric) (k : Handle) : Option Member :=
  match c.server with
  | none => f.members.find? k
  | some previous =>
      if k = previous.handle then
        if f.refuseDeletes then (f.members.find? k).map .closed else none
      else f.members.find? k

variable {c : Context} {t : Timing} {s : Site} {domain : UInt32} {registry : Registry}

theorem readied_spec (hq : s.QuietBut none) (t : Timing) (domain : UInt32)
    (registry : Registry) :
    s.fabric.SameSettings (c.readied t s domain registry).fabric ∧
      (∀ k, (c.readied t s domain registry).fabric.members.find? k = c.leaves s.fabric k) ∧
      (c.readied t s domain registry).QuietBut none := by
  cases hserver : c.server with
  | none =>
      simp only [readied, discardHeld, leaves, hserver]
      exact ⟨.refl _, fun _ => rfl, hq⟩
  | some previous =>
      let told := s.note (.noticed (.serverReplaced previous.handle previous.domain))
      have hdown := QuietBut.takesDown (s := told) hq t previous.handle
      simp only [readied, discardHeld, leaves, hserver, discard, fabric_note, fabric_clearRecord]
      refine ⟨hdown.settings, fun k => ?_, hdown.quiet.clearRecord c.store previous.domain⟩
      split
      · rename_i hk
        rw [hk]
        exact hdown.own
      · rename_i hk
        exact hdown.other k hk

/-- The records as a start leaves them before it writes one: that of the server before is gone. -/
theorem load_discardHeld {good : Storage → Prop} (hstore : c.store.Reliable good)
    (hgood : good s.storage) (t : Timing) :
    good (c.discardHeld t s).storage ∧ ∀ q, c.store.load (c.discardHeld t s).storage q =
      if ∃ previous, c.server = some previous ∧ previous.domain = q then .ok none
      else c.store.load s.storage q := by
  cases hserver : c.server with
  | none => simpa [discardHeld, hserver] using hgood
  | some previous =>
      let told := s.note (.noticed (.serverReplaced previous.handle previous.domain))
      let closed := t.pause .closed (told.close previous.handle)
      have hclose : Site.Step told (told.close previous.handle) := .close told previous.handle
      have hsame : told.SameRecords (t.pause .deleted (closed.delete previous.handle).1) :=
        ((hclose.sameRecords.trans (t.drains .closed _).sameRecords).trans
          (sameRecords_delete _ _)).trans (t.drains .deleted _).sameRecords
      have hgood' : good (t.pause .deleted (closed.delete previous.handle).1).storage :=
        hsame.storage.symm ▸ hgood
      simp only [discardHeld, hserver, discard]
      refine ⟨good_clearRecord hstore hgood' _, fun q => ?_⟩
      rw [load_clearRecord hstore hgood', hsame.storage]
      simp only [Option.some.injEq, exists_eq_left', eq_comm (a := q)]
      rfl

/-! ## The whole start -/

theorem find?_members_launched (hf : (c.readied t s domain registry).fabric.failNextCreate = false)
    (k : Handle) :
    (c.launched t s domain registry).fabric.members.find? k =
      if k = (c.readied t s domain registry).fabric.nextHandle then
        some (.new domain c.config.serverQos.profile true)
      else (c.readied t s domain registry).fabric.members.find? k := by
  rw [launched, create_of_accepted hf]
  exact OrderedMap.find?_insert _ _ _ _

theorem settlingIn_launched (hs : s.Sound) (hroutes : s.Routes) (hq : s.QuietBut none)
    (hf : (c.readied t s domain registry).fabric.failNextCreate = false) :
    (c.launched t s domain registry).SettlingIn (c.launched t s domain registry).fabric.members
      s.fabric.refuseDeletes (c.readied t s domain registry).fabric.nextHandle registry := by
  have hmoves := (c.paces_launched t s domain registry).moves
  obtain ⟨hsettings, _, hquiet⟩ := readied_spec (c := c) hq t domain registry
  refine ⟨hmoves.sound hs, hmoves.routes hs hroutes, ?_, ?_, fun _ => .inl rfl,
    hquiet.transfer fun k hne hen => ⟨Option.some_ne_none k, ?_, ?_⟩⟩
  · rw [launched, create_of_accepted hf]
    exact hsettings.refuseDeletes
  · rw [launched, create_of_accepted hf]
    refine ⟨Nat.lt_succ_self _, .new registry (some (.new c.config.includeInternals)),
      discoveryListener?_eq_some.2 ?_, rfl⟩
    exact (OrderedMap.find?_insert _ _ _ _).trans (if_pos rfl)
  · have hother := find?_members_launched hf k
    rw [if_neg fun hk => hne (congrArg some hk)] at hother
    exact (Fabric.isEnabled_congr hother).symm.trans hen
  · rw [launched, create_of_accepted hf]
    exact (OrderedMap.find?_insert _ _ _ _).trans (if_neg fun hk => hne (congrArg some hk))

/-- What a start that succeeds does for the server that it creates. -/
structure Starts (c : Context) (t : Timing) (s : Site) (domain : UInt32) (registry : Registry)
    (server : Handle) : Prop where
  answer : (c.start t s domain registry).2.2 = .ok server
  context : (c.start t s domain registry).1 = { c with server := some ⟨domain, server⟩ }
  latest : ∀ k ∈ s.handles, k.number < server.number
  member : (c.start t s domain registry).2.1.fabric.members.find? server =
    some (.new domain ⟨c.config.serverPrefix, none,
      [.udp c.config.listenAddress c.config.listenPort]⟩ true)
  record : c.store.load (c.start t s domain registry).2.1.storage domain =
    .ok (some ⟨domain, s.processes.own, c.config.serverPrefix, s.processes.now⟩)
  /-- Unless a callback of the new server deletes whom it is told of. -/
  others : ∀ k, k ≠ server → (∀ previous, c.server = some previous → k ≠ previous.handle) →
    (c.start t s domain registry).2.1.fabric.members.find? k = s.fabric.members.find? k ∨
      ¬ registry.IsQuiet ∧ s.fabric.refuseDeletes = false ∧
        (c.start t s domain registry).2.1.fabric.members.find? k = none

/-- What a start does that is refused the creation of a server. -/
structure FailsToStart (c : Context) (t : Timing) (s : Site) (domain : UInt32)
    (registry : Registry) : Prop where
  answer : (c.start t s domain registry).2.2 = .error (.creationFailure domain)
  context : (c.start t s domain registry).1 = { c with server := none }
  nobody : ∀ k, s.fabric.members.find? k = none →
    (c.start t s domain registry).2.1.fabric.members.find? k = none
  others : ∀ k, (∀ previous, c.server = some previous → k ≠ previous.handle) →
    (c.start t s domain registry).2.1.fabric.members.find? k = s.fabric.members.find? k

/-- What a start does in any case with the server that its context holds, and with records. -/
structure MakesWay (c : Context) (t : Timing) (s : Site) (domain : UInt32)
    (registry : Registry) : Prop where
  idle : ∀ previous, c.server = some previous →
    (c.start t s domain registry).2.1.fabric.isEnabled previous.handle = false
  retired : ∀ previous, c.server = some previous →
    (c.start t s domain registry).2.1.fabric.members.find? previous.handle =
      if s.fabric.refuseDeletes then (s.fabric.members.find? previous.handle).map .closed else none
  forgotten : ∀ previous, c.server = some previous →
    previous.domain ≠ domain ∨ s.fabric.failNextCreate = true →
      c.store.load (c.start t s domain registry).2.1.storage previous.domain = .ok none
  records : ∀ q, q ≠ domain ∨ s.fabric.failNextCreate = true →
    (∀ previous, c.server = some previous → q ≠ previous.domain) →
      c.store.load (c.start t s domain registry).2.1.storage q = c.store.load s.storage q

theorem leaves_of_held {f : Fabric} {previous : Running} (hr : c.server = some previous) :
    c.leaves f previous.handle =
      if f.refuseDeletes then (f.members.find? previous.handle).map .closed else none := by
  simp only [leaves, hr, if_true]

theorem leaves_of_not_held {f : Fabric} {k : Handle}
    (hk : ∀ previous, c.server = some previous → k ≠ previous.handle) :
    c.leaves f k = f.members.find? k := by
  unfold leaves
  split
  · rfl
  · rename_i previous hr
    rw [if_neg (hk previous hr)]

/-- No member comes of what a start leaves of the others. -/
theorem leaves_eq_none {f : Fabric} {k : Handle} (hk : f.members.find? k = none) :
    c.leaves f k = none := by
  unfold leaves
  split
  · exact hk
  · simp [hk]

/-- Who is a member after a start that succeeds. -/
theorem find?_members_start_of_accepted (hs : s.Sound) (hroutes : s.Routes) (hnumbered : s.Numbered)
    (hq : s.QuietBut none) (hf : s.fabric.failNextCreate = false) (t : Timing) (domain : UInt32)
    (registry : Registry) (k : Handle) :
    (c.start t s domain registry).2.1.fabric.members.find? k =
        (if k = s.fabric.nextHandle then some (.new domain c.config.serverQos.profile true)
          else c.leaves s.fabric k) ∨
      k ≠ s.fabric.nextHandle ∧ ¬ registry.IsQuiet ∧ s.fabric.refuseDeletes = false ∧
        (c.start t s domain registry).2.1.fabric.members.find? k = none := by
  obtain ⟨hsettings, hmembers, _⟩ := readied_spec (c := c) hq t domain registry
  have hf' := hsettings.failNextCreate.trans hf
  have hserver : (c.readied t s domain registry).fabric.nextHandle ≠ .null := by
    rw [hsettings.nextHandle, hnumbered.next]
    exact fun heq => Nat.succ_ne_zero _ (congrArg Handle.number heq)
  have hsettled := (settlingIn_launched hs hroutes hq hf').drains hserver (t.drains .created _)
  have hmember := hsettled.member k
  rw [find?_members_launched hf', hmembers, hsettings.nextHandle] at hmember
  rw [start_of_accepted hf', fabric_saveRecord, fabric_note]
  exact hmember

/-- Who is a member after a start that fails. -/
theorem find?_members_start_of_refused (hq : s.QuietBut none)
    (hf : s.fabric.failNextCreate = true) (t : Timing) (domain : UInt32) (registry : Registry)
    (k : Handle) :
    (c.start t s domain registry).2.1.fabric.members.find? k = c.leaves s.fabric k := by
  obtain ⟨hsettings, hmembers, _⟩ := readied_spec (c := c) hq t domain registry
  have hf' := hsettings.failNextCreate.trans hf
  rw [start_of_refused hf', ← hmembers, launched, create_of_refused hf']

/-- The records after a start. -/
theorem load_start {good : Storage → Prop} (hstore : c.store.Reliable good)
    (hgood : good s.storage) (hq : s.QuietBut none) (t : Timing) (domain : UInt32)
    (registry : Registry) (q : UInt32) :
    c.store.load (c.start t s domain registry).2.1.storage q =
      if s.fabric.failNextCreate = false ∧ q = domain then
        .ok (some ⟨domain, s.processes.own, c.config.serverPrefix, s.processes.now⟩)
      else if ∃ previous, c.server = some previous ∧ previous.domain = q then .ok none
      else c.store.load s.storage q := by
  obtain ⟨hsettings, _, _⟩ := readied_spec (c := c) hq t domain registry
  obtain ⟨hgood', hload⟩ := load_discardHeld hstore hgood t
  have hlaunched := (c.sameRecords_launched t s domain registry).storage
  have hsame : (t.pause .created (c.launched t s domain registry)).storage =
      (c.discardHeld t s).storage :=
    (t.drains .created _).sameRecords.storage.trans hlaunched
  have hprocesses : (t.pause .created (c.launched t s domain registry)).processes = s.processes :=
    Moves.processes_eq (Paces.moves ((c.paces_launched t s domain registry).trans
      (paces_pause t .created _)))
  cases hf : s.fabric.failNextCreate with
  | true =>
      rw [start_of_refused (hsettings.failNextCreate.trans hf)]
      simp only [Bool.true_eq_false, false_and, if_false, hlaunched, hload]
  | false =>
      have hcreated : good (t.pause .created (c.launched t s domain registry)).storage :=
        hsame.symm ▸ hgood'
      rw [start_of_accepted (hsettings.failNextCreate.trans hf),
        load_saveRecord hstore (s := (t.pause .created (c.launched t s domain registry)).note _)
          hcreated]
      simp only [ServerRecord.started, hprocesses, true_and, note, hsame, hload]

theorem starts_of_accepted {good : Storage → Prop} (hstore : c.store.Reliable good)
    (hgood : good s.storage) (hs : s.Sound) (hroutes : s.Routes) (hnumbered : s.Numbered)
    (hq : s.QuietBut none) (hf : s.fabric.failNextCreate = false) (t : Timing) (domain : UInt32)
    (registry : Registry) : c.Starts t s domain registry s.fabric.nextHandle := by
  obtain ⟨hsettings, _, _⟩ := readied_spec (c := c) hq t domain registry
  have hstart := start_of_accepted (hsettings.failNextCreate.trans hf)
  rw [hsettings.nextHandle] at hstart
  have hmembers := find?_members_start_of_accepted (c := c) hs hroutes hnumbered hq hf t domain
    registry
  refine ⟨by rw [hstart], by rw [hstart], fun k hk => (hnumbered.mem_handles.1 hk).2, ?_, ?_,
    fun k hne hother => ?_⟩
  · have hmember := (hmembers s.fabric.nextHandle).resolve_right fun hgone => hgone.1 rfl
    rwa [if_pos rfl] at hmember
  · rw [load_start hstore hgood hq t, if_pos ⟨hf, rfl⟩]
  · have hmember := hmembers k
    rw [if_neg hne, leaves_of_not_held hother] at hmember
    exact hmember.imp id And.right

theorem failsToStart_of_refused (hq : s.QuietBut none) (hf : s.fabric.failNextCreate = true)
    (t : Timing) (domain : UInt32) (registry : Registry) :
    c.FailsToStart t s domain registry := by
  obtain ⟨hsettings, _, _⟩ := readied_spec (c := c) hq t domain registry
  have hstart := start_of_refused (hsettings.failNextCreate.trans hf)
  have hmembers := find?_members_start_of_refused (c := c) hq hf t domain registry
  refine ⟨by rw [hstart], by rw [hstart], fun k hk => ?_, fun k hother => ?_⟩
  · rw [hmembers, leaves_eq_none hk]
  · rw [hmembers, leaves_of_not_held hother]

theorem makesWay_start {good : Storage → Prop} (hstore : c.store.Reliable good)
    (hgood : good s.storage) (hs : s.Sound) (hroutes : s.Routes) (hnumbered : s.Numbered)
    (hq : s.QuietBut none)
    (hissued : ∀ previous, c.server = some previous → s.fabric.Issued previous.handle)
    (t : Timing) (domain : UInt32) (registry : Registry) : c.MakesWay t s domain registry := by
  have hretired : ∀ previous, c.server = some previous →
      (c.start t s domain registry).2.1.fabric.members.find? previous.handle =
        c.leaves s.fabric previous.handle := by
    intro previous hr
    cases hf : s.fabric.failNextCreate with
    | true => exact find?_members_start_of_refused hq hf t domain registry previous.handle
    | false =>
        have hne : previous.handle ≠ s.fabric.nextHandle := by
          intro heq
          exact s.fabric.not_issued_nextHandle (heq ▸ hissued previous hr)
        have hmember := find?_members_start_of_accepted (c := c) hs hroutes hnumbered hq hf t domain
          registry previous.handle
        rw [if_neg hne] at hmember
        rcases hmember with hsame | ⟨_, _, haccepts, hgone⟩
        · exact hsame
        · rw [hgone, leaves_of_held hr, haccepts]
          rfl
  have hunwritten : ∀ q, q ≠ domain ∨ s.fabric.failNextCreate = true →
      ¬ (s.fabric.failNextCreate = false ∧ q = domain) := by
    rintro q hspared ⟨hf, hsame⟩
    rcases hspared with hne | hrefused
    · exact hne hsame
    · rw [hf] at hrefused
      cases hrefused
  refine ⟨fun previous hr => isEnabled_start_of_held hr (hissued previous hr) t domain registry,
    fun previous hr => ?_, fun previous hr hspared => ?_, fun q hspared hother => ?_⟩
  · rw [hretired previous hr, leaves_of_held hr]
  · rw [load_start hstore hgood hq t, if_neg (hunwritten _ hspared), if_pos ⟨previous, hr, rfl⟩]
  · rw [load_start hstore hgood hq t, if_neg (hunwritten q hspared),
      if_neg fun ⟨previous, hr, hsame⟩ => hother previous hr hsame.symm]

end Context

namespace Deployment

/-- Where nobody meddles and the store does not fail, a start takes down the server that the
context holds, and then creates another one or says that it could not; whatever belongs to
neither of the two stays as it was. -/
theorem Reachable.start_makes_way {d : Deployment} (hd : d.Reachable) {c : Context}
    (hc : d.Owns c) (hquiet : d.site.QuietBut none) {good : Storage → Prop}
    (hstore : c.store.Reliable good) (hgood : good d.site.storage) (t : Timing)
    (domain : UInt32) (registry : Registry) :
    (d.site.fabric.failNextCreate = false → ∃ server, c.Starts t d.site domain registry server) ∧
      (d.site.fabric.failNextCreate = true → c.FailsToStart t d.site domain registry) ∧
      c.MakesWay t d.site domain registry := by
  have hissued : ∀ previous, c.server = some previous → d.site.fabric.Issued previous.handle :=
    fun previous hr => (hd.mirrored hc hr).issued
  have hsound := hd.sound
  obtain ⟨storage, processes, store, hrun⟩ := hd
  have hmoves := Run.moves hrun
  have hnew := Site.sound_new storage processes
  have hroutes := hmoves.routes hnew (Site.routes_new storage processes)
  have hnumbered : d.site.Numbered := Site.Moves.invariant
    (fun hmove _ hnumbered => hmove.numbered hnumbered) hmoves hnew
    (Site.numbered_new storage processes)
  exact ⟨fun hf => ⟨_, Context.starts_of_accepted hstore hgood hsound hroutes hnumbered hquiet hf
      t domain registry⟩,
    fun hf => Context.failsToStart_of_refused hquiet hf t domain registry,
    Context.makesWay_start hstore hgood hsound hroutes hnumbered hquiet hissued t domain registry⟩

/-- A context that runs a server, in a deployment that is to refuse deletions and the next
creation. -/
def withStubborn : Deployment :=
  withBystander.performAll [.command (.refuseDeletes true), .command .failNextCreate]

theorem server_makes_way :
    (∃ server, serving.Starts .late withBystander.site 2 .empty server) ∧
    serving.FailsToStart .prompt withStubborn.site 1 .empty ∧
    (serving.start .prompt withStubborn.site 1 .empty).2.1.fabric.isEnabled ⟨1⟩ = false ∧
    serving.store.load (serving.start .prompt withStubborn.site 1 .empty).2.1.storage 1 =
      .ok none := by
  have hd : withBystander.Reachable := ⟨_, _, _, run_performAll _ _⟩
  have hd' : withStubborn.Reachable := hd.run (run_performAll _ _)
  have hall : withStubborn.site.listeners.entries.all (fun e => e.2.IsQuiet) = true := by cbv
  have hquiet : withStubborn.site.QuietBut none := fun k l _ _ hl =>
    of_decide_eq_true (List.all_eq_true.1 hall _ (OrderedMap.find?_eq_some_iff.1 hl))
  obtain ⟨hstarts, -, -⟩ := hd.start_makes_way (c := serving) (.inl ⟨"A", by cbv⟩)
    quiet_withBystander Store.reliable_memory trivial .late 2 .empty
  obtain ⟨-, hfails, hmakes⟩ := hd'.start_makes_way (c := serving) (.inl ⟨"A", by cbv⟩)
    hquiet Store.reliable_memory trivial .prompt 1 .empty
  exact ⟨hstarts (by cbv), hfails (by cbv), hmakes.idle _ rfl,
    hmakes.forgotten _ rfl (.inr (by cbv))⟩

end Deployment

end Rendezvous
