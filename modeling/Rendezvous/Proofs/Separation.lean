import Rendezvous.Proofs.Launching
import Rendezvous.Proofs.Vouching

/-!
# Servers and recovery participants kept apart

A configuration of use has four ports that differ and two prefixes that differ. Whoever
joins a fabric is told of under its own prefix for as long as word of it is on its way.
Main statement: the locators of a server and of a recovery participant of one context differ
and say what was configured, and no recovery of the context takes a recovery participant of
it for a server.
-/

namespace Rendezvous

/-! ## Configurations of use -/

namespace Config

def portNumbers (c : Config) : List UInt16 :=
  [c.listenPort, c.peerPort, c.recoveryListenPort, c.recoveryPeerPort]

/-- The ports can be used and differ, as the prefixes do, and there is some time to wait. -/
structure Separates (c : Config) : Prop where
  used : ∀ port ∈ c.portNumbers, port ≠ 0
  nodup : c.portNumbers.Nodup
  prefixes : c.serverPrefix ≠ c.recoveryPrefix
  waits : c.recoveryWait ≠ 0

variable {c : Config}

theorem validate_eq_ok_iff : c.validate = .ok () ↔ c.flaw? = none := by
  unfold validate
  cases c.flaw? <;> simp

theorem find?_ports_eq_none_iff :
    c.ports.find? (·.2 == 0) = none ↔ ∀ port ∈ c.portNumbers, port ≠ 0 := by
  simp [ports, portNumbers]

/-- The three comparisons of ports cover the six pairs. -/
theorem nodup_portNumbers_iff : c.portNumbers.Nodup ↔ c.listenPort ≠ c.peerPort ∧
    c.recoveryListenPort ≠ c.recoveryPeerPort ∧
      ¬([c.listenPort, c.peerPort].contains c.recoveryListenPort = true ∨
        [c.listenPort, c.peerPort].contains c.recoveryPeerPort = true) := by
  simp only [portNumbers, List.nodup_cons, List.mem_cons, List.not_mem_nil, or_false,
    List.contains_eq_mem, decide_eq_true_eq, not_or, List.nodup_nil, not_false_eq_true, and_true]
  tauto

theorem flaw?_eq_none_iff : c.flaw? = none ↔ c.Separates := by
  have hchecks : c.flaw? = none ↔ c.ports.find? (·.2 == 0) = none ∧
      (c.listenPort ≠ c.peerPort ∧ c.recoveryListenPort ≠ c.recoveryPeerPort ∧
        ¬([c.listenPort, c.peerPort].contains c.recoveryListenPort = true ∨
          [c.listenPort, c.peerPort].contains c.recoveryPeerPort = true)) ∧
      c.serverPrefix ≠ c.recoveryPrefix ∧ c.recoveryWait ≠ 0 := by
    unfold flaw?
    cases c.ports.find? (·.2 == 0) with
    | some found => simp
    | none =>
        simp only [true_and]
        split_ifs <;> simp_all
  rw [hchecks, find?_ports_eq_none_iff, ← nodup_portNumbers_iff]
  exact ⟨fun ⟨hused, hnodup, hprefixes, hwaits⟩ => ⟨hused, hnodup, hprefixes, hwaits⟩,
    fun h => ⟨h.used, h.nodup, h.prefixes, h.waits⟩⟩

theorem validate_eq_ok_iff_separates : c.validate = .ok () ↔ c.Separates :=
  validate_eq_ok_iff.trans flaw?_eq_none_iff

/-! ## Locators -/

/-- The locators of a participant, its own ones and those of the servers that it knows. -/
def Qos.allLocators (q : Qos) : List Locator := q.locators ++ q.remoteServers.map (·.locator)

/-- The locators of a server and of a recovery participant. -/
def allLocators (c : Config) : List Locator :=
  c.serverQos.allLocators ++ c.recoveryQos.allLocators

theorem map_port_allLocators (c : Config) :
    c.allLocators.map (·.port) = c.portNumbers.map UInt16.toUInt32 := rfl

/-- Locators that differ in nothing else differ in their ports. -/
theorem Separates.nodup_allLocators (h : c.Separates) : c.allLocators.Nodup := by
  apply List.Nodup.of_map (·.port)
  rw [map_port_allLocators]
  exact h.nodup.map fun port port' heq => UInt16.toUInt32_inj.1 heq

end Config

theorem Locator.v4Octets_udp (octets : Vector UInt8 4) (port : UInt16) :
    (udp (.v4 octets) port).v4Octets = octets := by
  apply Vector.toList_inj.1
  change ((Vector.replicate 12 0 ++ octets : Vector UInt8 (12 + 4)).drop 12).toList = octets.toList
  rw [Vector.toList_drop, Vector.toList_append, Vector.toList_replicate]
  rfl

theorem Endpoint.address?_ofLocator_udp (address : Address) (port : UInt16) :
    (ofLocator (.udp address port)).address? = some address := by
  cases address with
  | v4 octets =>
      have hkind : (Locator.udp (.v4 octets) port).kind = Locator.kindUdpV4 := rfl
      rw [ofLocator, if_pos hkind, Locator.v4Octets_udp, address?]
  | v6 octets => rfl

/-- What was configured can be read off the locators. -/
theorem Config.map_allLocators (c : Config) :
    c.allLocators.map (fun l => ((Endpoint.ofLocator l).address?, l.port)) =
      [(some c.listenAddress, c.listenPort.toUInt32), (some c.peerAddress, c.peerPort.toUInt32),
        (some c.listenAddress, c.recoveryListenPort.toUInt32),
        (some c.peerAddress, c.recoveryPeerPort.toUInt32)] := by
  have hudp (address : Address) (port : UInt16) :
      ((Endpoint.ofLocator (.udp address port)).address?, (Locator.udp address port).port) =
        (some address, port.toUInt32) := by
    rw [Endpoint.address?_ofLocator_udp]
    rfl
  simp only [allLocators, serverQos, recoveryQos, Qos.backup, Qos.allLocators, List.map_cons,
    List.map_nil, List.cons_append, List.nil_append, hudp]

/-! ## What a participant is told of under -/

theorem Member.introduction_subject {m : Member} {h k : Handle} {profile : Profile}
    {n : Notification} (hn : n ∈ m.introduction h) (hsubject : n.subject = .participant k profile) :
    k = h ∧ profile = m.profile := by
  rcases List.mem_cons.1 hn with rfl | hn
  · cases hsubject
    exact ⟨rfl, rfl⟩
  · obtain ⟨e, _, rfl⟩ := List.mem_map.1 hn
    cases hsubject

namespace Fabric

/-- The handle was given to a participant with a profile: it is there with that profile if it is
there, and word of it tells of that profile even if it is gone. -/
structure Bears (f : Fabric) (k : Handle) (profile : Profile) : Prop where
  issued : f.Issued k
  member : ∀ {m}, f.members.find? k = some m → m.profile = profile
  told : ∀ {d profile'}, d ∈ f.queue.toList →
    d.notification.subject = .participant k profile' → profile' = profile

variable {f f' : Fabric} {k : Handle} {profile : Profile}

/-- What a newcomer and those who were there tell each other. -/
theorem subject_of_mem_exchange {newcomer : Handle} {m : Member} {other : Handle × Member}
    {d : Delivery} (hd : d ∈ exchange newcomer m other)
    (hsubject : d.notification.subject = .participant k profile) :
    (k = other.1 ∧ profile = other.2.profile) ∨ (k = newcomer ∧ profile = m.profile) := by
  rcases List.mem_append.1 hd with hd | hd
  · split at hd
    · obtain ⟨n, hn, rfl⟩ := List.mem_map.1 hd
      exact .inl (Member.introduction_subject hn hsubject)
    · cases hd
  · split at hd
    · cases List.mem_singleton.1 hd
      cases hsubject
      exact .inr ⟨rfl, rfl⟩
    · cases hd

theorem Bears.step (h : f.Bears k profile) (hstep : Step f f') : f'.Bears k profile := by
  have hlater := hstep.isLater
  refine ⟨hlater.issued h.issued, fun hm => ?_, ?_⟩
  · obtain ⟨m, hwas, hsame⟩ := hlater.member h.issued hm
    rw [hsame.profile]
    exact h.member hwas
  · intro d profile' hd hsubject
    cases hstep with
    | stay => exact h.told hd hsubject
    | configure => exact h.told hd hsubject
    | join domain newcomer listens =>
        rw [queue_join, List.mem_append] at hd
        rcases hd with hd | hd
        · exact h.told hd hsubject
        · obtain ⟨⟨k', m⟩, hmem, hd⟩ := List.mem_flatMap.1 hd
          rcases subject_of_mem_exchange hd hsubject with ⟨rfl, rfl⟩ | ⟨rfl, -⟩
          · exact h.member (mem_present.1 hmem).1
          · exact absurd h.issued f.not_issued_nextHandle
    | change hm hc =>
        rw [queue_change, List.mem_append] at hd
        rcases hd with hd | hd
        · exact h.told hd hsubject
        · split at hd
          · obtain ⟨target, -, hd⟩ := List.mem_flatMap.1 hd
            obtain ⟨n, hn, rfl⟩ := List.mem_map.1 hd
            obtain ⟨rfl, rfl⟩ := hc.subject hn hsubject
            exact h.member hm
          · cases hd
    | take hn =>
        refine h.told ?_ hsubject
        rw [(next?_eq_some hn).1]
        exact List.mem_cons_of_mem _ hd

/-- Nobody was told of a newcomer before. -/
theorem bears_join (hs : f.Sound) (hroutes : f.Routes) (domain : UInt32) (profile : Profile)
    (listens : Bool) : (f.join domain profile listens).1.Bears f.nextHandle profile := by
  refine ⟨Nat.lt_succ_self _, fun hm => ?_, ?_⟩
  · rw [find?_join_nextHandle] at hm
    cases hm
    rfl
  · intro d profile' hd hsubject
    rw [queue_join, List.mem_append] at hd
    rcases hd with hd | hd
    · have hrouted := hroutes d hd
      have hissued := hrouted.source
      rw [← hrouted.subject hsubject] at hissued
      exact absurd hissued f.not_issued_nextHandle
    · obtain ⟨⟨k', m⟩, hmem, hd⟩ := List.mem_flatMap.1 hd
      rcases subject_of_mem_exchange hd hsubject with ⟨rfl, -⟩ | ⟨-, rfl⟩
      · exact absurd (hs.member (mem_present.1 hmem).1) f.not_issued_nextHandle
      · rfl

end Fabric

namespace Site

variable {s s' : Site} {k scout : Handle} {profile : Profile} {target : GuidPrefix}

theorem Moves.bears (h : Moves s s') (hbears : s.fabric.Bears k profile) :
    s'.fabric.Bears k profile := by
  induction h with
  | refl => exact hbears
  | tail _ hmove ih =>
      cases hmove with
      | step h => exact ih.step h.fabric
      | keep => exact ih
      | tell => exact ih

theorem bears_create (hs : s.Sound) (hroutes : s.Routes) {domain : UInt32} {l : Listener}
    (hcreate : s.create domain profile l = (s', some scout)) :
    s'.fabric.Bears scout profile := by
  cases hf : s.fabric.failNextCreate with
  | true =>
      rw [create_of_refused hf] at hcreate
      cases hcreate
  | false =>
      rw [create_of_accepted hf] at hcreate
      cases hcreate
      exact Fabric.bears_join hs.fabric hroutes.queue domain profile true

theorem prefix_of_discovers? {n : Notification} (h : discovers? target n = some k) :
    ∃ profile, n.subject = .participant k profile ∧ profile.guidPrefix = target := by
  unfold discovers? at h
  split at h
  · rename_i k' profile _ hsubject
    split at h
    · rename_i htarget
      cases h
      exact ⟨profile, hsubject, htarget⟩
    · cases h
  · cases h

/-- Whoever stops the participants with a prefix takes one participant for none of them. -/
structure Overlooks (s : Site) (target : GuidPrefix) (scout : Handle) : Prop where
  undiscovered : ∀ d ∈ s.fabric.queue.toList, discovers? target d.notification ≠ some scout
  spared : ∀ {d fabric matched}, s.fabric.next? = some (d, fabric) →
    s.listeners.find? d.target = some (.recovery target matched) →
    ({ s with fabric }.deliver d).fabric.members.find? scout = s.fabric.members.find? scout

theorem overlooks_of_bears (hbears : s.fabric.Bears scout profile)
    (hne : profile.guidPrefix ≠ target) : s.Overlooks target scout := by
  have hundiscovered : ∀ d ∈ s.fabric.queue.toList,
      discovers? target d.notification ≠ some scout := by
    intro d hd hdiscovers
    obtain ⟨profile', hsubject, htarget⟩ := prefix_of_discovers? hdiscovers
    exact hne (hbears.told hd hsubject ▸ htarget)
  refine ⟨hundiscovered, fun {d fabric matched} hn hl => ?_⟩
  obtain ⟨hqueue, hrest⟩ := Fabric.next?_eq_some hn
  have hmembers : fabric.members = s.fabric.members := by rw [hrest]
  unfold deliver
  split
  · simp only [hl, hear]
    split
    · exact congrArg (·.find? scout) hmembers
    · rename_i server hdiscovers
      have hother : scout ≠ server := by
        rintro rfl
        exact hundiscovered d (hqueue ▸ List.mem_cons_self) hdiscovers
      rw [find?_members_delete, if_neg fun h => hother h.1]
      exact congrArg (·.find? scout) hmembers
  · exact congrArg (·.find? scout) hmembers

end Site

/-! ## Servers and recovery participants -/

/-- A configuration passes if and only if ports and prefixes are kept apart. Then the locators of
a server and of a recovery participant differ and tell what was configured, and wherever a
recovery participant is created, no recovery of its context takes it for a server. -/
theorem Config.validate_keeps_apart (config : Config) :
    (config.validate = .ok () ↔ config.Separates) ∧
      ∀ store c, Context.new config store = .ok c →
        c.config.allLocators.Nodup ∧
        c.config.allLocators.map (fun l => ((Endpoint.ofLocator l).address?, l.port)) =
          [(some config.listenAddress, config.listenPort.toUInt32),
            (some config.peerAddress, config.peerPort.toUInt32),
            (some config.listenAddress, config.recoveryListenPort.toUInt32),
            (some config.peerAddress, config.recoveryPeerPort.toUInt32)] ∧
        ∀ (d : Deployment) domain created scout s, d.Reachable →
          d.site.create domain c.config.recoveryQos.profile (.recovery c.config.serverPrefix 0) =
            (created, some scout) →
          Site.Moves created s → s.Overlooks c.config.serverPrefix scout := by
  refine ⟨validate_eq_ok_iff_separates, fun store c hnew => ?_⟩
  have hseparates := validate_eq_ok_iff_separates.1 (Deployment.validate_of_new hnew)
  obtain rfl := Context.new_eq_ok hnew
  refine ⟨hseparates.nodup_allLocators, config.map_allLocators, ?_⟩
  intro d domain created scout s hd hcreate hmoves
  obtain ⟨storage, processes, kept, hrun⟩ := hd
  have hbefore := Deployment.Run.moves hrun
  have hsound := hbefore.sound (Site.sound_new storage processes)
  have hroutes := hbefore.routes (Site.sound_new storage processes)
    (Site.routes_new storage processes)
  have hbears := hmoves.bears (Site.bears_create hsound hroutes hcreate)
  exact Site.overlooks_of_bears hbears (Ne.symm hseparates.prefixes)

/-- A recovery participant of one context, on the domain on which another one runs a server. -/
theorem Config.default_keeps_apart : ∃ created,
    Deployment.withBystander.site.create 1
      (Config.default (.ofString "state")).recoveryQos.profile
      (.recovery Config.defaultServerPrefix 0) = (created, some ⟨3⟩) ∧
    created.drain.Overlooks Config.defaultServerPrefix ⟨3⟩ := by
  have hnew : Context.new (Config.default (.ofString "state")) .memory =
      .ok ⟨Config.default (.ofString "state"), .memory, none⟩ := by cbv
  have hd : Deployment.withBystander.Reachable := ⟨_, _, _, Deployment.run_performAll _ _⟩
  have haccepts : Deployment.withBystander.site.fabric.failNextCreate = false := by cbv
  have hnext : Deployment.withBystander.site.fabric.nextHandle = ⟨3⟩ := by cbv
  have hcreate := Site.create_of_accepted haccepts 1
    (Config.default (.ofString "state")).recoveryQos.profile
    (.recovery Config.defaultServerPrefix 0)
  rw [hnext] at hcreate
  obtain ⟨-, -, hoverlooks⟩ :=
    (validate_keeps_apart (Config.default (.ofString "state"))).2 .memory _ hnew
  exact ⟨_, hcreate, hoverlooks _ 1 _ _ _ hd hcreate (Site.drains_drain _).paces.moves⟩

end Rendezvous
