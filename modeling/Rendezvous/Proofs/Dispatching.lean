import Rendezvous.Proofs.Calls

/-!
# What listeners dispatch

A listener is told one thing after the other, and a callback may answer each of its calls as it
likes, turning on all that the listener has taken in. Main statements: the calls made are those
that the notifications ask for, one each and in order, and every notification is counted once;
the graph is what the events make it, whatever is bound and whatever is answered, and it has an
event in it by the time that the event is called out. The listener of a server that is started
becomes, all along every run, what the deliveries made to the server make of it.
-/

namespace Rendezvous

/-! ## Runs of a listener -/

/-- How calls are answered; it may turn on all that the listener has taken in. -/
abbrev Reaction := DiscoveryListener → Call → Response

/-- Every callback answers as it always does. -/
def Reaction.own : Reaction := fun _ call => call.binding.callback.response

/-- A call that was made, and the listener as the callback found it. -/
structure Invocation where
  found : DiscoveryListener
  call : Call

namespace DiscoveryListener

/-- Take a notification in, and make the call that it leads to. -/
def hear (l : DiscoveryListener) (react : Reaction) (n : Notification) :
    DiscoveryListener × Option Invocation :=
  match l.receive n with
  | (l', none) => (l', none)
  | (l', some call) => (l'.settle (react l' call), some ⟨l', call⟩)

/-- Hear a row of notifications; the calls that were made come with what is left. -/
def hearAll (l : DiscoveryListener) (react : Reaction) (ns : List Notification) :
    DiscoveryListener × List Invocation :=
  ns.foldl (fun (l, made) n =>
    let (l, more) := l.hear react n
    (l, made ++ more.toList)) (l, [])

theorem hearAll_concat (l : DiscoveryListener) (react : Reaction) (ns : List Notification)
    (n : Notification) :
    l.hearAll react (ns ++ [n]) =
      (((l.hearAll react ns).1.hear react n).1,
        (l.hearAll react ns).2 ++ ((l.hearAll react ns).1.hear react n).2.toList) := by
  rw [hearAll, List.foldl_append]
  rfl

end DiscoveryListener

/-! ## What is to be called, and how it is to be counted -/

/-- What a notification has called, and with which record. -/
def Registry.call? (r : Registry) (n : Notification) : Option Call :=
  match n.status, n.subject with
  | .discovered, .participant h p =>
      r.participantDiscovered.map
        (⟨·, .discovered, .participant ⟨h, p.guidPrefix, .ofFirst p.locators⟩⟩)
  | .removed, .participant h p =>
      r.participantRemoved.map
        (⟨·, .removed, .participant ⟨h, p.guidPrefix, .ofFirst p.locators⟩⟩)
  | .discovered, .entity owner e =>
      (match e.kind with
        | .reader => r.readerDiscovered
        | .writer => r.writerDiscovered).map
        (⟨·, .discovered, .entity e.kind ⟨.ofString e.topicName, .ofString e.typeName, owner,
          .ofFirst e.locators.unicast⟩⟩)
  | .removed, .entity owner e =>
      (match e.kind with
        | .reader => r.readerRemoved
        | .writer => r.writerRemoved).map
        (⟨·, .removed, .entity e.kind ⟨.ofString e.topicName, .ofString e.typeName, owner,
          .ofFirst e.locators.unicast⟩⟩)
  | .changedQos, _ => none

theorem Registry.call?_eq (r : Registry) (n : Notification) :
    r.call? n = n.event?.bind fun e => (r.binding e.category).map (⟨·, e⟩) := by
  obtain ⟨status, subject⟩ := n
  cases subject with
  | participant h p => cases status <;> rfl
  | entity owner e =>
      obtain ⟨id, kind, topicName, typeName, locators⟩ := e
      cases status <;> cases kind <;> rfl

theorem Registry.callUpon_eq (r : Registry) (d : Delivery) :
    r.callUpon d = (r.call? d.notification).map (Site.sighting d.target) := by
  rw [r.call?_eq, callUpon]
  cases d.notification.event? with
  | none => rfl
  | some e =>
      simp only [Option.bind_eq_bind, Option.bind_some]
      cases r.binding e.category <;> rfl

def Locator.knownKinds : List Int32 := [kindUdpV4, kindUdpV6, kindTcpV4, kindTcpV6, kindShm]

namespace Notification

/-- The locators that a record may be made of. -/
def unicast (n : Notification) : List Locator :=
  match n.subject with
  | .participant _ p => p.locators
  | .entity _ e => e.locators.unicast

/-- Whether the first locator is missing, or of a kind that is not known. -/
def lacksTransport (n : Notification) : Bool :=
  n.unicast.head?.all fun l => l.kind ∉ Locator.knownKinds

/-- A notification without the locators that no record is made of. -/
def bare (n : Notification) : Notification :=
  match n.subject with
  | .participant h p => { n with subject := .participant h { p with locators := p.locators.take 1 } }
  | .entity owner e =>
      { n with subject := .entity owner { e with locators := ⟨e.locators.unicast.take 1, []⟩ } }

theorem status_ne_changedQos {n : Notification} {e : Event} (h : n.event? = some e) :
    n.status ≠ .changedQos := by
  intro hstatus
  simp [event?, hstatus] at h

theorem status_eq_changedQos {n : Notification} (h : n.event? = none) :
    n.status = .changedQos := by
  unfold event? at h
  split at h <;> simp_all

end Notification

theorem Endpoint.isUnknown_ofFirst (ls : List Locator) :
    (Endpoint.ofFirst ls).isUnknown = ls.head?.all fun l => l.kind ∉ Locator.knownKinds := by
  cases ls with
  | nil => rfl
  | cons l ls =>
      simp only [ofFirst, ofLocator, Locator.knownKinds, List.head?_cons, Option.all_some]
      split_ifs <;> simp_all [isUnknown, transport]

theorem Notification.record_event? {n : Notification} {e : Event} (h : n.event? = some e) :
    e.record = n.subject.record := by
  unfold event? at h
  split at h <;> cases h <;> rfl

theorem Notification.isUnknown_endpoint {n : Notification} {e : Event} (h : n.event? = some e) :
    e.record.endpoint.isUnknown = n.lacksTransport := by
  rw [record_event? h, lacksTransport, unicast]
  cases n.subject <;> exact Endpoint.isUnknown_ofFirst _

theorem Notification.event?_bare (n : Notification) : n.bare.event? = n.event? := by
  have hfirst (ls : List Locator) : Endpoint.ofFirst (ls.take 1) = Endpoint.ofFirst ls := by
    cases ls <;> rfl
  obtain ⟨status, subject⟩ := n
  cases subject <;> cases status <;> simp [event?, bare, Subject.record, hfirst]

/-- What a row of notifications makes of the counters of a listener, given what is bound, whether
there is a graph, and which calls were made. -/
structure Dispatched (registry : Registry) (tracked : Bool) (react : Reaction)
    (ns : List Notification) (made : List Invocation) (stats : Stats) : Prop where
  calls : made.map (·.call) = ns.filterMap registry.call?
  dispatched : stats.dispatched = made.countP fun i => react i.found i.call ≠ .panics
  failed : stats.failed = made.countP fun i => react i.found i.call = .panics
  unbound : stats.unbound =
    ns.countP fun n => n.status ≠ .changedQos ∧ registry.call? n = none
  qosChanges : stats.qosChanges = ns.countP fun n => n.status = .changedQos
  unknownTransport : stats.unknownTransport = ns.countP fun n =>
    n.status ≠ .changedQos ∧ n.lacksTransport ∧ (registry.call? n ≠ none ∨ tracked)

namespace DiscoveryListener

variable (l : DiscoveryListener) (react : Reaction) (n : Notification)

theorem registry_hear : (l.hear react n).1.registry = l.registry := by
  have hreceive := l.registry_receive n
  unfold hear
  split <;> rename_i heq <;> rw [heq] at hreceive
  · exact hreceive
  · exact (registry_settle _ _).trans hreceive

theorem isSome_graph_receive : (l.receive n).1.graph.isSome = l.graph.isSome := by
  cases hg : l.graph with
  | none =>
      unfold receive
      split
      · simp [countQosChange, hg]
      · split <;> simp [observe, countUnbound, hg]
  | some g => rw [graph_receive hg, Option.isSome_some, Option.isSome_some]

theorem graph_hear : (l.hear react n).1.graph = (l.receive n).1.graph := by
  unfold hear
  split <;> rename_i heq <;> rw [heq]
  exact graph_settle _ _

theorem hear_of_changedQos {l : DiscoveryListener} {n : Notification} (h : n.event? = none) :
    l.hear react n = (l.countQosChange, none) := by
  simp only [hear, receive, h]

variable {l n} {e : Event}

/-- What is not bound is counted, and observed only for the sake of a graph. -/
theorem hear_of_unbound (h : n.event? = some e) (hb : l.registry.binding e.category = none) :
    l.hear react n =
      (if l.graph.isSome then (l.observe e).countUnbound else l.countUnbound, none) := by
  simp only [hear, receive, h, hb]

theorem hear_of_bound {b : Binding} (h : n.event? = some e)
    (hb : l.registry.binding e.category = some b) :
    l.hear react n =
      ((l.observe e).settle (react (l.observe e) ⟨b, e⟩), some ⟨l.observe e, ⟨b, e⟩⟩) := by
  simp only [hear, receive, h, hb]

theorem event_receive {l' : DiscoveryListener} {call : Call}
    (h : l.receive n = (l', some call)) : n.event? = some call.event := by
  unfold receive at h
  split at h
  · cases h
  · rename_i e hevent
    split at h <;> cases h
    exact hevent

/-- A callback finds the listener with the event taken in. -/
theorem hear_eq_some {i : Invocation} (h : (l.hear react n).2 = some i) :
    n.event? = some i.call.event ∧ i.found = (l.receive n).1 := by
  rcases hr : l.receive n with ⟨l', call⟩
  simp only [hear, hr] at h
  cases call with
  | none => cases h
  | some call =>
      cases h
      exact ⟨event_receive hr, rfl⟩

theorem stats_settle (l : DiscoveryListener) (response : Response) :
    (l.settle response).stats =
      { l.stats with
        dispatched := l.stats.dispatched + if response = .panics then 0 else 1
        failed := l.stats.failed + if response = .panics then 1 else 0 } := by
  cases response <;> rfl

theorem stats_observe (h : n.event? = some e) :
    (l.observe e).stats =
      { l.stats with
        unknownTransport :=
          l.stats.unknownTransport + if n.lacksTransport then 1 else 0 } := by
  simp only [observe, Notification.isUnknown_endpoint h, Bool.toNat, Bool.cond_eq_ite]

end DiscoveryListener

/-- One notification more is called out, if it is to be, and counted once. -/
theorem Dispatched.hear {l : DiscoveryListener} {react : Reaction} {ns : List Notification}
    {made : List Invocation}
    (h : Dispatched l.registry l.graph.isSome react ns made l.stats) (n : Notification) :
    Dispatched l.registry l.graph.isSome react (ns ++ [n])
      (made ++ (l.hear react n).2.toList) (l.hear react n).1.stats := by
  have hcall := l.registry.call?_eq n
  cases hevent : n.event? with
  | none =>
      have hstatus := Notification.status_eq_changedQos hevent
      rw [hevent, Option.bind_none] at hcall
      rw [DiscoveryListener.hear_of_changedQos react hevent]
      constructor <;> simp [DiscoveryListener.countQosChange, hcall, hstatus, h.calls,
        h.dispatched, h.failed, h.unbound, h.qosChanges, h.unknownTransport]
  | some e =>
      have hstatus := Notification.status_ne_changedQos hevent
      have hobserve := DiscoveryListener.stats_observe (l := l) hevent
      rw [hevent, Option.bind_some] at hcall
      cases hb : l.registry.binding e.category with
      | none =>
          rw [hb, Option.map_none] at hcall
          rw [DiscoveryListener.hear_of_unbound react hevent hb]
          cases hg : l.graph.isSome <;> rw [hg] at h <;> constructor <;>
            simp [DiscoveryListener.countUnbound, hobserve, List.countP_cons, hcall, hstatus,
              h.calls, h.dispatched, h.failed, h.unbound, h.qosChanges, h.unknownTransport]
      | some b =>
          rw [hb, Option.map_some] at hcall
          rw [DiscoveryListener.hear_of_bound react hevent hb]
          constructor <;> simp [DiscoveryListener.stats_settle, hobserve, List.countP_cons, hcall,
            hstatus, h.calls, h.dispatched, h.failed, h.unbound, h.qosChanges, h.unknownTransport]

/-- Each notification is of one kind: it asks for a call, nothing is bound for it, or it is a mere
change of quality. -/
theorem Registry.length_eq (registry : Registry) (ns : List Notification) :
    (ns.filterMap registry.call?).length +
      (ns.countP fun n => n.status ≠ .changedQos ∧ registry.call? n = none) +
      (ns.countP fun n => n.status = .changedQos) = ns.length := by
  induction ns with
  | nil => rfl
  | cons n ns ih =>
      rw [List.countP_cons, List.countP_cons, List.length_cons, List.filterMap_cons, ← ih]
      cases hcall : registry.call? n with
      | none => by_cases hstatus : n.status = .changedQos <;> simp [hstatus] <;> omega
      | some call =>
          have hstatus : n.status ≠ .changedQos := by
            intro hstatus
            simp [call?, hstatus] at hcall
          simp [hstatus]
          omega

theorem Dispatched.total {registry : Registry} {tracked : Bool} {react : Reaction}
    {ns : List Notification} {made : List Invocation} {stats : Stats}
    (h : Dispatched registry tracked react ns made stats) :
    stats.dispatched + stats.failed + stats.unbound + stats.qosChanges = ns.length := by
  have hmade : stats.failed + stats.dispatched = (ns.filterMap registry.call?).length := by
    rw [h.failed, h.dispatched, ← h.calls, List.length_map,
      List.length_eq_countP_add_countP (fun i => react i.found i.call = .panics)]
    simp
  have hlength := registry.length_eq ns
  rw [← hmade, ← h.unbound, ← h.qosChanges] at hlength
  omega

namespace DiscoveryListener

/-! ## What a row of notifications does -/

variable (l : DiscoveryListener) (react : Reaction) (ns : List Notification)

theorem registry_hearAll : (l.hearAll react ns).1.registry = l.registry := by
  induction ns using List.reverseRecOn with
  | nil => rfl
  | append_singleton ns n ih => rw [hearAll_concat, registry_hear, ih]

theorem isSome_graph_hearAll : (l.hearAll react ns).1.graph.isSome = l.graph.isSome := by
  induction ns using List.reverseRecOn with
  | nil => rfl
  | append_singleton ns n ih => rw [hearAll_concat, graph_hear, isSome_graph_receive, ih]

/-- A new listener, with or without a graph, calls and counts all that it hears. -/
theorem dispatched_hearAll (registry : Registry) (graph : Option Graph) :
    Dispatched registry graph.isSome react ns ((new registry graph).hearAll react ns).2
      ((new registry graph).hearAll react ns).1.stats := by
  let l := new registry graph
  have hall : Dispatched (l.hearAll react ns).1.registry (l.hearAll react ns).1.graph.isSome react
      ns (l.hearAll react ns).2 (l.hearAll react ns).1.stats := by
    induction ns using List.reverseRecOn with
    | nil => exact ⟨rfl, rfl, rfl, rfl, rfl, rfl⟩
    | append_singleton ns n ih =>
        rw [hearAll_concat, registry_hear, graph_hear, isSome_graph_receive]
        exact ih.hear n
  rwa [registry_hearAll, isSome_graph_hearAll] at hall

/-- Locators after the first, and those for multicast, make no difference. -/
theorem hearAll_bare : l.hearAll react (ns.map Notification.bare) = l.hearAll react ns := by
  have hhear (l : DiscoveryListener) (n : Notification) :
      l.hear react n.bare = l.hear react n := by
    simp only [hear, receive, n.event?_bare]
  simp only [hearAll, List.foldl_map, hhear]

end DiscoveryListener

/-! ## Listeners of a site -/

namespace Site

variable (s : Site) (h : Handle)

theorem deliveries_delete : (s.delete h).1.deliveries = s.deliveries := by
  unfold delete
  split
  · exact deliveries_note_of_none rfl
  · rfl

theorem deliveries_close : (s.close h).deliveries = s.deliveries := by
  unfold close
  split
  · exact deliveries_note_of_none rfl
  · rfl

theorem deliveries_create (domain : UInt32) (profile : Profile) (l : Listener) :
    (s.create domain profile l).1.deliveries = s.deliveries := by
  cases hf : s.fabric.failNextCreate with
  | true => rw [create_of_refused hf]; rfl
  | false =>
      rw [create_of_accepted hf]
      exact deliveries_note_of_none rfl

theorem deliveries_addEntities (kind : EntityKind) (topicName typeName : String)
    (locators : RemoteLocators) (copies : Nat) (reply : Reply) :
    (s.addEntities h kind topicName typeName locators copies reply).1.deliveries =
      s.deliveries := by
  induction copies generalizing s reply with
  | zero => rfl
  | succ copies ih =>
      unfold addEntities
      split <;> rw [ih]
      rfl

/-- No command makes a delivery. -/
theorem deliveries_perform (c : Command) : (s.perform c).1.deliveries = s.deliveries := by
  cases c with
  | addPeer domain profile => exact deliveries_note_of_none rfl
  | create domain profile label script =>
      have hcreate := s.deliveries_create domain profile (.scripted label script)
      simp only [perform]
      split <;> rename_i heq <;> rw [heq] at hcreate <;> exact hcreate
  | addEntity owner kind topicName typeName locators copies =>
      exact s.deliveries_addEntities owner kind topicName typeName locators copies _
  | removeEntity owner id =>
      simp only [perform]
      cases s.fabric.removeEntity owner id <;> rfl
  | updateQos k =>
      simp only [perform]
      cases s.fabric.updateQos k <;> rfl
  | close k => exact s.deliveries_close k
  | delete k =>
      have hdelete := s.deliveries_delete k
      simp only [perform]
      split <;> rename_i heq <;> rw [heq] at hdelete <;> exact hdelete
  | failNextCreate => rfl
  | refuseDeletes on => rfl
  | contains k => rfl
  | isEnabled k => rfl
  | count domain => rfl
  | panic => rfl

theorem deliveries_takeTurn (label : String) (turn : List Command) :
    (s.takeTurn label turn).deliveries = s.deliveries := by
  induction turn generalizing s with
  | nil => rfl
  | cons c turn ih =>
      by_cases hpanic : c = .panic
      · subst hpanic
        rfl
      · simp only [takeTurn]
        rw [ih, deliveries_note_of_none rfl, deliveries_perform]

theorem deliveries_respond (call : Call) : (s.respond call).deliveries = s.deliveries := by
  unfold respond
  split
  · exact (deliveries_note_of_none rfl).trans (deliveries_delete _ _)
  · rfl

/-- Nothing that a listener does upon a delivery makes another one. -/
theorem deliveries_hear (l : Listener) (n : Notification) :
    (s.hear h l n).deliveries = s.deliveries := by
  have htake := s.deliveries_takeIn h l n
  cases l with
  | discovery l =>
      rcases hr : l.receive n with ⟨l', call⟩
      simp only [takeIn, hear, hr] at htake ⊢
      cases call with
      | none => exact htake
      | some call => exact (deliveries_respond _ call).trans htake
  | recovery target matched =>
      simp only [hear]
      split
      · rfl
      · exact deliveries_delete _ _
  | scripted label script => exact deliveries_takeTurn _ label _

/-- The listener of a participant becomes what a notification makes of it, with the answers that
its callbacks give. -/
theorem discoveryListener?_hear (l : DiscoveryListener) (n : Notification) :
    (s.hear h (.discovery l) n).discoveryListener? h = some (l.hear .own n).1 := by
  have htake := s.find?_listeners_takeIn_discovery h l n
  rw [discoveryListener?_eq_some]
  rcases hr : l.receive n with ⟨l', call⟩
  simp only [takeIn, hear, DiscoveryListener.hear, hr] at htake ⊢
  cases call with
  | none => exact htake
  | some call =>
      simp only [invoke, settle, OrderedMap.find?_modify, listeners_respond]
      rw [htake]
      rfl

/-- The call that a notification leads to is made for the participant. -/
theorem callsFor_hear (l : DiscoveryListener) (n : Notification) :
    (s.hear h (.discovery l) n).callsFor h =
      s.callsFor h ++ ((l.hear .own n).2.map fun i => sighting h i.call).toList := by
  rcases hr : l.receive n with ⟨l', call⟩
  have htake : ((s.setListener h (.discovery l')).notePublished l l').callsFor h = s.callsFor h :=
    callsFor_notePublished _ _ _ _
  simp only [hear, DiscoveryListener.hear, hr]
  cases call with
  | none => simpa using htake
  | some call =>
      refine (callsFor_respond _ call h).trans ?_
      rw [callsFor_note, htake, isCallFor_sighting, beq_self_eq_true, if_pos rfl]
      rfl

variable {s h}

/-- Whether the listener of a participant has become what the deliveries made to the participant
make of one. -/
structure HasHeard (s : Site) (h : Handle) (l : DiscoveryListener) : Prop where
  issued : s.fabric.Issued h
  listener : s.discoveryListener? h =
    some (l.hearAll .own ((s.received h).map (·.notification))).1

variable {s' : Site} {l : DiscoveryListener}

theorem HasHeard.of_same (hheard : s.HasHeard h l) (hlater : s'.fabric.IsLater s.fabric)
    (hlistener : s'.listeners.find? h = s.listeners.find? h)
    (hreceived : s'.received h = s.received h) : s'.HasHeard h l where
  issued := hlater.issued hheard.issued
  listener := by
    rw [hreceived, ← hheard.listener]
    simp only [discoveryListener?, hlistener]

theorem deliver_eq (s : Site) (d : Delivery) :
    s.deliver d = s ∨ ∃ l, s.listeners.find? d.target = some l ∧
      s.deliver d = (s.note (.delivered d l.label?)).hear d.target l d.notification := by
  unfold deliver
  split
  · split
    · exact .inl rfl
    · exact .inr ⟨_, ‹_›, rfl⟩
  · exact .inl rfl

/-- A delivery is heard by its target, and by nobody else. -/
theorem HasHeard.step? (hheard : s.HasHeard h l) (hstep : s.step? = some s') : s'.HasHeard h l := by
  have hlater := (steps_of_step? hstep).moves.isLater
  obtain ⟨d, fabric, hn, rfl⟩ := Site.exists_deliver_of_step? hstep
  have hissued : ({ s with fabric } : Site).fabric.Issued h := by
    show fabric.Issued h
    rw [(Fabric.next?_eq_some hn).2]
    exact hheard.issued
  have hother : h ≠ d.target → _ := fun hne => find?_listeners_deliver_of_ne hissued hne
  rcases deliver_eq { s with fabric } d with hsame | ⟨l', hl', hmakes⟩
  · rw [hsame] at hlater ⊢
    exact hheard.of_same hlater rfl rfl
  · rw [hmakes] at hlater hother ⊢
    have hmade : ((({ s with fabric } : Site).note (.delivered d l'.label?)).hear d.target l'
        d.notification).deliveries = s.deliveries ++ [d] := by
      rw [deliveries_hear, deliveries_note]
      rfl
    by_cases htarget : h = d.target
    · subst htarget
      have hl := discoveryListener?_eq_some.1 hheard.listener
      rw [hl] at hl'
      cases hl'
      refine ⟨hlater.issued hheard.issued, ?_⟩
      rw [discoveryListener?_hear, received_of_made hmade, List.map_append, List.map_singleton,
        DiscoveryListener.hearAll_concat]
    · exact hheard.of_same hlater (hother htarget) (received_of_made_of_ne hmade (Ne.symm htarget))

theorem Pace.hasHeard (hpace : Pace s s') (hheard : s.HasHeard h l) : s'.HasHeard h l := by
  have hlater := hpace.moves.isLater
  have hissued := hheard.issued
  cases hpace with
  | perform c =>
      exact hheard.of_same hlater (find?_listeners_perform hissued c)
        (received_of_same (s.deliveries_perform c) h)
  | create domain profile =>
      exact hheard.of_same hlater (find?_listeners_create hissued domain profile _)
        (received_of_same (s.deliveries_create domain profile _) h)
  | close k =>
      exact hheard.of_same hlater (by rw [listeners_close])
        (received_of_same (s.deliveries_close k) h)
  | delete k =>
      exact hheard.of_same hlater (by rw [listeners_delete])
        (received_of_same (s.deliveries_delete k) h)
  | deliver hstep => exact hheard.step? hstep
  | keep => exact hheard.of_same hlater rfl rfl
  | tell => exact hheard.of_same hlater rfl (received_of_same (deliveries_note_of_none rfl) h)

/-- A listener has been told nothing when its participant is created. -/
theorem Unheard.hasHeard_create (hs : s.Unheard) (hf : s.fabric.failNextCreate = false)
    (domain : UInt32) (profile : Profile) (l : DiscoveryListener) :
    (s.create domain profile (.discovery l)).1.HasHeard s.fabric.nextHandle l := by
  have hnone := (hs _ s.fabric.not_issued_nextHandle).2
  have hreceived := received_of_same (s.deliveries_create domain profile (.discovery l))
    s.fabric.nextHandle
  rw [create_of_accepted hf] at hreceived ⊢
  refine ⟨Nat.lt_succ_self _, discoveryListener?_eq_some.2 ?_⟩
  rw [hreceived, hnone]
  exact (OrderedMap.find?_insert _ _ _ _).trans (if_pos rfl)

theorem Paces.hasHeard (hrow : Paces s s') (hheard : s.HasHeard h l) : s'.HasHeard h l := by
  induction hrow with
  | refl => exact hheard
  | tail _ hpace ih => exact hpace.hasHeard ih

end Site

/-! ## Main statements -/

namespace DiscoveryListener

variable (react react' : Reaction) (ns : List Notification)

/-- What is called, and how it is counted, is settled by the notifications, by what is bound, by
how calls are answered and by whether there is a graph; a site has its listeners hear in the same
way, and notes each call. -/
theorem dispatches_exactly (registry : Registry) (graph : Option Graph) :
    let run := (new registry graph).hearAll react ns
    Dispatched registry graph.isSome react ns run.2 run.1.stats ∧
      run.1.stats.dispatched + run.1.stats.failed + run.1.stats.unbound + run.1.stats.qosChanges =
        ns.length ∧
      (new registry graph).hearAll react (ns.map Notification.bare) = run ∧
      ∀ (s : Site) (h : Handle) (n : Notification),
        (s.hear h (.discovery run.1) n).discoveryListener? h = some (run.1.hear .own n).1 ∧
        (s.hear h (.discovery run.1) n).callsFor h =
          s.callsFor h ++ ((run.1.hear .own n).2.map fun i => Site.sighting h i.call).toList := by
  have hdispatched := dispatched_hearAll react ns registry graph
  exact ⟨hdispatched, hdispatched.total, (new registry graph).hearAll_bare react ns,
    fun s h n => ⟨s.discoveryListener?_hear h _ n, s.callsFor_hear h _ n⟩⟩

section Tracking

variable {l : DiscoveryListener} {g : Graph} (hg : l.graph = some g)

include hg

theorem graph_hearAll : (l.hearAll react ns).1.graph = some (g.applyAll (eventsOf ns)) := by
  induction ns using List.reverseRecOn with
  | nil => exact hg
  | append_singleton ns n ih =>
      rw [hearAll_concat, graph_hear, graph_receive ih, eventsOf_append, Graph.applyAll_append]

/-- A callback is called once its event is in the graph, and nothing that came later is. -/
theorem found_hearAll {i : Invocation} (hi : i ∈ (l.hearAll react ns).2) :
    ∃ before n after, ns = before ++ n :: after ∧
      (l.hearAll react before).2 ++ [i] <+: (l.hearAll react ns).2 ∧
      n.event? = some i.call.event ∧
      i.found.graph = some ((g.applyAll (eventsOf before)).apply i.call.event) := by
  induction ns using List.reverseRecOn with
  | nil => cases hi
  | append_singleton ns n ih =>
      have hmade := congrArg Prod.snd (l.hearAll_concat react ns n)
      have hgrows : (l.hearAll react ns).2 <+: (l.hearAll react (ns ++ [n])).2 := by
        rw [hmade]
        exact List.prefix_append _ _
      rw [hmade, List.mem_append, Option.mem_toList] at hi
      rcases hi with hi | hi
      · obtain ⟨before, n', after, rfl, hprefix, hevent, hfound⟩ := ih hi
        exact ⟨before, n', after ++ [n], by simp, hprefix.trans hgrows, hevent, hfound⟩
      · obtain ⟨hevent, hfound⟩ := hear_eq_some react hi
        refine ⟨ns, n, [], rfl, ?_, hevent, ?_⟩
        · rw [hmade, Option.mem_def.1 hi]
          exact List.prefix_rfl
        · have hone : eventsOf [n] = [i.call.event] := by simp [eventsOf, hevent]
          rw [hfound, graph_receive (graph_hearAll react ns hg), hone]
          rfl

end Tracking

/-- Two listeners that start from one graph publish the same, whatever is bound to either of them
and whatever is answered: what the events make of the graph. Each call is made with its event in
the graph. -/
theorem graph_unswayed (g : Graph) (registry registry' : Registry) :
    let run := (new registry (some g)).hearAll react
    let run' := (new registry' (some g)).hearAll react'
    (∀ count, (run (ns.take count)).1.graph = some (g.applyAll (eventsOf (ns.take count))) ∧
      (run (ns.take count)).1.graph.map (·.latest) =
        (run' (ns.take count)).1.graph.map (·.latest)) ∧
    ∀ i ∈ (run ns).2, ∃ before n after, ns = before ++ n :: after ∧
      (run before).2 ++ [i] <+: (run ns).2 ∧ n.event? = some i.call.event ∧
      i.found.graph = some ((g.applyAll (eventsOf before)).apply i.call.event) := by
  refine ⟨fun count => ?_, fun i hi => found_hearAll react ns rfl hi⟩
  have hgraph := graph_hearAll react (ns.take count) (l := new registry (some g)) rfl
  have hgraph' := graph_hearAll react' (ns.take count) (l := new registry' (some g)) rfl
  exact ⟨hgraph, by rw [hgraph, hgraph']⟩

/-- A stranger is discovered with a writer, which changes its quality of service; another stranger
is discovered; then the first one withdraws its writer and goes. -/
def strangers : List Notification :=
  let first : Subject := .participant ⟨1⟩ ⟨Config.defaultServerPrefix, none, []⟩
  let writer : Subject := .entity Config.defaultServerPrefix
    ⟨.ofNumber .writer 1, .writer, "rt/chatter", "String", ⟨[], []⟩⟩
  let second : Subject := .participant ⟨2⟩ ⟨Config.defaultRecoveryPrefix, none, []⟩
  [⟨.discovered, first⟩, ⟨.discovered, writer⟩, ⟨.changedQos, writer⟩, ⟨.discovered, second⟩,
    ⟨.removed, writer⟩, ⟨.removed, first⟩]

/-- Callbacks that panic or return for a host; most categories are not bound. -/
def wavering : Registry :=
  (Registry.empty.put .participantDiscovered (some ⟨.native "host" .panics, "context"⟩)).put
    .writerRemoved (some ⟨.native "host" .yields, "context"⟩)

/-- The callback that panics upon the second stranger finds the graph as it is where nothing is
bound, and at the end both graphs publish the same. -/
theorem strangers_found :
    let run := (new wavering (some (.new false))).hearAll .own
    let run' := (new .empty (some (.new false))).hearAll .own
    (run strangers).2.length = 3 ∧
    (∃ i ∈ (run strangers).2, some i.call.event = (strangers[3]?).bind (·.event?) ∧
      i.found.graph = (run' (strangers.take 4)).1.graph) ∧
    (run strangers).1.graph.map (·.latest) = (run' strangers).1.graph.map (·.latest) := by
  intro run run'
  obtain ⟨hsame, hfound⟩ := graph_unswayed .own .own strangers (.new false) wavering .empty
  obtain ⟨hgraph, -⟩ := graph_unswayed .own .own strangers (.new false) .empty wavering
  have hlength : (run strangers).2.length = 3 := by cbv
  refine ⟨hlength, ?_, (hsame 6).2⟩
  have hcalled : 1 < (run strangers).2.length := by rw [hlength]; decide
  have hevent : ((run strangers).2[1]?).map (·.call.event) = (strangers[3]?).bind (·.event?) := by
    cbv
  rw [List.getElem?_eq_getElem hcalled, Option.map_some] at hevent
  obtain ⟨before, n, after, hsplit, -, hat, hseen⟩ := hfound _ (List.getElem_mem hcalled)
  refine ⟨(run strangers).2[1], List.getElem_mem hcalled, hevent, hseen.trans ?_⟩
  -- No other notification makes the same event.
  have hthree : before.length = 3 := by
    have hn : strangers[before.length]? = some n := by simp [hsplit]
    have hbind : (strangers[before.length]?).bind (·.event?) = (strangers[3]?).bind (·.event?) := by
      rw [hn, Option.bind_some, hat, hevent]
    have hlt : before.length < strangers.length := (List.getElem?_eq_some_iff.1 hn).1
    have honly : ∀ i < strangers.length,
        (strangers[i]?).bind (·.event?) = (strangers[3]?).bind (·.event?) → i = 3 := by decide
    exact honly _ hlt hbind
  have htake : strangers.take 4 = before ++ [n] := by
    rw [hsplit, List.take_append, hthree]
    simp [List.take_of_length_le, hthree]
  rw [(hgraph 4).1, htake, eventsOf_append, Graph.applyAll_append, eventsOf_cons, hat]
  rfl

end DiscoveryListener

namespace Deployment

theorem Reachable.hasHeard_start {d : Deployment} (hd : d.Reachable) {c c' : Context}
    {t : Timing} {domain : UInt32} {registry : Registry} {site : Site} {k : Handle}
    (hstart : c.start t d.site domain registry = (c', site, .ok k)) :
    site.HasHeard k (.new registry (some (.new c.config.includeInternals))) := by
  have hready := (c.paces_readied t d.site domain registry).moves
  cases hf : (c.readied t d.site domain registry).fabric.failNextCreate with
  | true =>
      rw [Context.start_of_refused hf] at hstart
      cases hstart
  | false =>
      have hrest := c.paces_start_of_launched t d.site domain registry
      rw [hstart] at hrest
      rw [Context.start_of_accepted hf] at hstart
      cases hstart
      obtain ⟨storage, processes, store, hrun⟩ := hd
      have hunheard : (c.readied t d.site domain registry).Unheard :=
        Site.Moves.invariant Site.Move.unheard ((Run.moves hrun).trans hready)
          (Site.sound_new storage processes) (Site.unheard_new storage processes)
      exact Site.Paces.hasHeard hrest (hunheard.hasHeard_create hf _ _ _)

/-- All along every run, a server that a context has started is what the deliveries made to it
make of a new listener, and what was called for it is what they ask for. -/
theorem Reachable.serves_exactly {d : Deployment} (hd : d.Reachable) {c c' : Context}
    {t : Timing} {domain : UInt32} {registry : Registry} {site : Site} {k : Handle}
    (hstart : c.start t d.site domain registry = (c', site, .ok k)) {s : Site}
    (hrow : Site.Paces site s) :
    let run := (DiscoveryListener.new registry (some (.new c.config.includeInternals))).hearAll .own
      ((s.received k).map (·.notification))
    s.discoveryListener? k = some run.1 ∧
      s.callsFor k = run.2.map fun i => Site.sighting k i.call := by
  intro run
  refine ⟨(hrow.hasHeard (hd.hasHeard_start hstart)).listener, ?_⟩
  have hobliges := (Site.Paces.moves hrow).obliges (hd.obliges_start hstart).2.2
  have hcalls := (DiscoveryListener.dispatched_hearAll .own ((s.received k).map (·.notification))
    registry (some (.new c.config.includeInternals))).calls
  calc
    s.callsFor k = (s.received k).filterMap registry.callUpon := hobliges.calls
    _ = (s.received k).filterMap fun d =>
          (registry.call? d.notification).map (Site.sighting k) := by
      refine List.filterMap_congr fun d hd => ?_
      have htarget : d.target = k := by simpa using (List.mem_filter.1 hd).2
      rw [registry.callUpon_eq, htarget]
    _ = (run.2.map (·.call)).map (Site.sighting k) := by
      rw [hcalls, List.filterMap_map, List.map_filterMap]
      rfl
    _ = run.2.map fun i => Site.sighting k i.call := List.map_map

end Deployment

end Rendezvous
