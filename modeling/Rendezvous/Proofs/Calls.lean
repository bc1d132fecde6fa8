import Rendezvous.Proofs.Departures

/-!
# What is called upon which delivery

A listener that calls what its registry binds does so once for each delivery that brings an
event of a category that is bound, and at no other time. Main statement: all along the run
of a site, the calls made for a participant are those that its deliveries lead to, with what
was bound when the participant was created. What a callback asks for before it returns may as
well be asked for right after its delivery.
-/

namespace Rendezvous

/-- The call that a delivery leads to, with some callbacks bound. -/
def Registry.callUpon (registry : Registry) (d : Delivery) : Option Sighting := do
  let e ← d.notification.event?
  let b ← registry.binding e.category
  return Site.sighting d.target ⟨b, e⟩

def Listener.callUpon : Listener → Delivery → Option Sighting
  | .discovery l, d => l.registry.callUpon d
  | _, _ => none

theorem DiscoveryListener.callUpon_eq (l : DiscoveryListener) (d : Delivery) :
    l.registry.callUpon d =
      (l.receive d.notification).2.map (Site.sighting d.target) := by
  simp only [Registry.callUpon, receive]
  cases d.notification.event? with
  | none => rfl
  | some e =>
      simp only [Option.bind_eq_bind, Option.bind_some]
      cases l.registry.binding e.category <;> rfl

namespace Site

/-- What a move does with calls: it makes none and no delivery either, or it makes one delivery
and the call that this leads to. -/
inductive Calls (s s' : Site) : Prop
  | idle (hcalls : ∀ k, s'.callsFor k = s.callsFor k) (hsame : s'.deliveries = s.deliveries)
  | upon {d : Delivery} {l : Listener} (hen : s.fabric.isEnabled d.target = true)
      (hl : s.listeners.find? d.target = some l) (hmade : s'.deliveries = s.deliveries ++ [d])
      (hcalls : ∀ k, s'.callsFor k =
        s.callsFor k ++ if d.target = k then (l.callUpon d).toList else [])

theorem callsFor_takeIn (s : Site) (l : Listener) (d : Delivery) (k : Handle) :
    (s.takeIn d.target l d.notification).callsFor k =
      s.callsFor k ++ if d.target = k then (l.callUpon d).toList else [] := by
  cases l with
  | discovery l =>
      have hset (l' : DiscoveryListener) :
          ((s.setListener d.target (.discovery l')).notePublished l l').callsFor k =
            s.callsFor k := callsFor_notePublished _ _ _ _
      simp only [Listener.callUpon, l.callUpon_eq]
      rcases hr : l.receive d.notification with ⟨l', call⟩
      simp only [takeIn, hr]
      cases call with
      | none => simpa using hset l'
      | some call =>
          simp only
          rw [callsFor_note, hset, isCallFor_sighting]
          by_cases htarget : d.target = k <;> simp [htarget]
  | recovery target matched =>
      simp only [takeIn, Listener.callUpon, Option.toList_none, ite_self, List.append_nil]
      split <;> rfl
  | scripted label script =>
      simp only [Listener.callUpon, Option.toList_none, ite_self, List.append_nil]
      rfl

theorem Step.calls {s s' : Site} (h : Step s s') : s.Calls s' := by
  cases h with
  | join domain profile =>
      exact .idle (fun _ => callsFor_note_of_not rfl) (deliveries_note_of_none rfl)
  | create domain profile =>
      cases hf : s.fabric.failNextCreate with
      | true =>
          rw [create_of_refused hf]
          exact .idle (fun _ => rfl) rfl
      | false =>
          rw [create_of_accepted hf]
          exact .idle (fun _ => callsFor_note_of_not rfl) (deliveries_note_of_none rfl)
  | close k =>
      unfold Site.close
      split
      · exact .idle (fun _ => callsFor_note_of_not rfl) (deliveries_note_of_none rfl)
      · exact .idle (fun _ => rfl) rfl
  | delete k =>
      unfold Site.delete
      split
      · exact .idle (fun _ => callsFor_note_of_not rfl) (deliveries_note_of_none rfl)
      · exact .idle (fun _ => rfl) rfl
  | @hear d fabric l hn hen hl =>
      refine .upon (d := d) ?_ hl ?_ fun k => ?_
      · rwa [Fabric.isEnabled_of_next? hn] at hen
      · rw [deliveries_takeIn, deliveries_note]
        rfl
      · rw [callsFor_takeIn, callsFor_note_of_not rfl]
        rfl
  | remark hs =>
      refine .idle (fun _ => callsFor_note_of_not ?_) (deliveries_note_of_none ?_) <;>
        cases hs <;> rfl
  | announce => exact .idle (fun _ => rfl) rfl
  | withdraw => exact .idle (fun _ => rfl) rfl
  | changeQos => exact .idle (fun _ => rfl) rfl
  | configure => exact .idle (fun _ => rfl) rfl
  | lose => exact .idle (fun _ => rfl) rfl
  | settle => exact .idle (fun _ => rfl) rfl

theorem Move.calls {s s' : Site} (h : Move s s') : s.Calls s' := by
  cases h with
  | step h => exact h.calls
  | keep => exact .idle (fun _ => rfl) rfl
  | tell => exact .idle (fun _ => callsFor_note_of_not rfl) (deliveries_note_of_none rfl)

/-- Whether nothing has been delivered to a participant, or called for it, that is yet to come. -/
def Unheard (s : Site) : Prop :=
  ∀ k, ¬ s.fabric.Issued k → s.callsFor k = [] ∧ s.received k = []

theorem unheard_new (storage : Storage) (processes : ProcessTable) :
    (new storage processes).Unheard := fun _ _ => ⟨rfl, rfl⟩

theorem Move.unheard {s s' : Site} (h : Move s s') (hs : s.Sound) (hunheard : s.Unheard) :
    s'.Unheard := by
  intro k hk
  have hbefore : ¬ s.fabric.Issued k := fun hissued => hk (h.isLater.issued hissued)
  obtain ⟨hcalls, hreceived⟩ := hunheard k hbefore
  cases h.calls with
  | idle hsame hdeliveries =>
      exact ⟨(hsame k).trans hcalls, (received_of_same hdeliveries k).trans hreceived⟩
  | upon hen _ hmade hnew =>
      obtain ⟨m, hm, _⟩ := Fabric.isEnabled_iff.1 hen
      have hne : _ ≠ k := fun heq => hbefore (heq ▸ hs.fabric.member hm)
      rw [hnew, received_of_made_of_ne hmade hne, if_neg hne, List.append_nil]
      exact ⟨hcalls, hreceived⟩

/-- Whether a participant listens for a host, and was called for upon its deliveries only. -/
structure Obliges (s : Site) (k : Handle) (registry : Registry) : Prop where
  serves : s.Serves k registry
  calls : s.callsFor k = (s.received k).filterMap registry.callUpon

theorem Move.obliges {s s' : Site} (h : Move s s') {k : Handle} {registry : Registry}
    (hk : s.Obliges k registry) : s'.Obliges k registry := by
  refine ⟨Moves.serves (.single h) hk.serves, ?_⟩
  cases h.calls with
  | idle hsame hdeliveries => rw [hsame, received_of_same hdeliveries, hk.calls]
  | @upon d l hen hl hmade hnew =>
      by_cases htarget : d.target = k
      · subst htarget
        obtain ⟨_, l', hl', hregistry⟩ := hk.serves
        rw [discoveryListener?_eq_some.1 hl'] at hl
        cases hl
        rw [hnew, received_of_made hmade, List.filterMap_append, hk.calls, if_pos rfl,
          Listener.callUpon, hregistry]
        cases hcall : registry.callUpon d <;> simp [hcall]
      · rw [hnew, received_of_made_of_ne hmade htarget, if_neg htarget, List.append_nil, hk.calls]

theorem Moves.obliges {s s' : Site} (h : Moves s s') {k : Handle} {registry : Registry}
    (hk : s.Obliges k registry) : s'.Obliges k registry := by
  induction h with
  | refl => exact hk
  | tail _ hmove ih => exact hmove.obliges ih

/-- Who is created with some callbacks bound is called for upon its deliveries only. -/
theorem Unheard.obliges_create {s : Site} (h : s.Unheard) (hf : s.fabric.failNextCreate = false)
    (domain : UInt32) (profile : Profile) (registry : Registry) (graph : Option Graph) :
    (s.create domain profile (.discovery (.new registry graph))).1.Obliges
      s.fabric.nextHandle registry := by
  obtain ⟨hcalls, hreceived⟩ := h _ s.fabric.not_issued_nextHandle
  rw [create_of_accepted hf]
  have hfind := OrderedMap.find?_insert s.listeners s.fabric.nextHandle s.fabric.nextHandle
    (.discovery (.new registry graph))
  rw [if_pos rfl] at hfind
  refine ⟨⟨Nat.lt_succ_self _, .new registry graph, discoveryListener?_eq_some.2 hfind, rfl⟩, ?_⟩
  calc
    _ = s.callsFor s.fabric.nextHandle := callsFor_note_of_not rfl
    _ = (s.received s.fabric.nextHandle).filterMap registry.callUpon := by
      rw [hcalls, hreceived, List.filterMap_nil]
    _ = _ := congrArg _ (received_of_same (deliveries_note_of_none rfl) _).symm

end Site

namespace Deployment

/-- A server that a context starts is called for upon its deliveries only, with what was bound
when it was started. -/
theorem Reachable.obliges_start {d : Deployment} (hd : d.Reachable) {c c' : Context}
    {t : Timing} {domain : UInt32} {registry : Registry} {site : Site} {k : Handle}
    (hstart : c.start t d.site domain registry = (c', site, .ok k)) :
    c'.server = some ⟨domain, k⟩ ∧ ¬ d.site.fabric.Issued k ∧ site.Obliges k registry := by
  have hready := (c.paces_readied t d.site domain registry).moves
  cases hf : (c.readied t d.site domain registry).fabric.failNextCreate with
  | true =>
      rw [Context.start_of_refused hf] at hstart
      cases hstart
  | false =>
      have hrest := (c.paces_start_of_launched t d.site domain registry).moves
      rw [hstart] at hrest
      rw [Context.start_of_accepted hf] at hstart
      obtain ⟨storage, processes, store, hrun⟩ := hd
      have hunheard : (c.readied t d.site domain registry).Unheard :=
        Site.Moves.invariant Site.Move.unheard ((Run.moves hrun).trans hready)
          (Site.sound_new storage processes) (Site.unheard_new storage processes)
      have hlaunched := hunheard.obliges_create hf domain c.config.serverQos.profile registry
        (some (.new c.config.includeInternals))
      cases hstart
      refine ⟨rfl, fun hissued => ?_, Site.Moves.obliges hrest hlaunched⟩
      exact Fabric.not_issued_nextHandle _ (hready.isLater.issued hissued)

end Deployment

/-! ## What callbacks ask for -/

namespace Site

variable {s : Site} {k : Handle}

def performAll (s : Site) (cs : List Command) : Site := cs.foldl (fun s c => (s.perform c).1) s

theorem create_settle (hk : s.fabric.Issued k) (call : Call) (domain : UInt32) (profile : Profile)
    (l : Listener) : (s.settle k call).create domain profile l =
      ((s.create domain profile l).1.settle k call, (s.create domain profile l).2) := by
  have hne : k ≠ s.fabric.nextHandle := by
    rintro rfl
    exact s.fabric.not_issued_nextHandle hk
  cases hf : s.fabric.failNextCreate with
  | true =>
      rw [create_of_refused hf, create_of_refused (s := s.settle k call) hf]
      rfl
  | false =>
      rw [create_of_accepted hf, create_of_accepted (s := s.settle k call) hf]
      simp only [settle, setListener, noteJoined, note, OrderedMap.modify, OrderedMap.insert]
      rw [OrderedMap.alter_comm hne]

theorem addEntities_settle (call : Call) (owner : Handle) (kind : EntityKind)
    (topicName typeName : String) (locators : RemoteLocators) (copies : Nat) (reply : Reply) :
    (s.settle k call).addEntities owner kind topicName typeName locators copies reply =
      ((s.addEntities owner kind topicName typeName locators copies reply).1.settle k call,
        (s.addEntities owner kind topicName typeName locators copies reply).2) := by
  induction copies generalizing s reply with
  | zero => rfl
  | succ copies ih =>
      have hfabric : (s.settle k call).fabric = s.fabric := rfl
      simp only [addEntities, hfabric]
      split
      · exact ih (s := { s with fabric := _ }) _
      · exact ih _

/-- Whether a call is counted before a command or after it is all the same. -/
theorem perform_settle (hk : s.fabric.Issued k) (call : Call) (c : Command) :
    (s.settle k call).perform c = ((s.perform c).1.settle k call, (s.perform c).2) := by
  have hfabric : (s.settle k call).fabric = s.fabric := rfl
  cases c with
  | create domain profile label script =>
      simp only [perform, create_settle hk]
      rcases s.create domain profile (.scripted label script) with ⟨s', _ | h⟩ <;> rfl
  | addEntity owner kind topicName typeName locators copies =>
      exact addEntities_settle _ _ _ _ _ _ _ _
  | removeEntity owner id =>
      simp only [perform, hfabric]
      cases s.fabric.removeEntity owner id <;> rfl
  | updateQos h =>
      simp only [perform, hfabric]
      cases s.fabric.updateQos h <;> rfl
  | close h =>
      simp only [perform, close, hfabric]
      split <;> rfl
  | delete h =>
      simp only [perform, delete, hfabric]
      cases s.fabric.delete h <;> rfl
  | addPeer => rfl
  | failNextCreate => rfl
  | refuseDeletes => rfl
  | contains => rfl
  | isEnabled => rfl
  | count => rfl
  | panic => rfl

theorem performAll_settle (hk : s.fabric.Issued k) (call : Call) (cs : List Command) :
    (s.settle k call).performAll cs = (s.performAll cs).settle k call := by
  induction cs generalizing s with
  | nil => rfl
  | cons c cs ih =>
      have hissued := (Moves.isLater (steps_perform s c).moves).issued hk
      simp only [performAll, List.foldl_cons, perform_settle hk]
      exact ih hissued

/-- What is left by a delivery upon which a callback asks for commands before it returns. -/
def takeAsked (s : Site) (d : Delivery) (l l' : DiscoveryListener) (call : Call)
    (cs : List Command) : Site :=
  let s := ((s.note (.delivered d none)).setListener d.target (.discovery l')).notePublished l l'
  (((s.note (sighting d.target call)).respond call).performAll cs).settle d.target call

theorem performAll_deliver {d : Delivery} {l l' : DiscoveryListener} {call : Call}
    (hk : s.fabric.Issued d.target) (hen : s.fabric.isEnabled d.target = true)
    (hl : s.listeners.find? d.target = some (.discovery l))
    (hcall : l.receive d.notification = (l', some call)) (cs : List Command) :
    (s.deliver d).performAll cs = s.takeAsked d l l' call cs := by
  have hdeliver : s.deliver d = (((s.note (.delivered d none)).setListener d.target
      (.discovery l')).notePublished l l').invoke d.target call := by
    simp only [deliver, if_pos hen, hl, hear, hcall, Listener.label?]
  rw [hdeliver, invoke, takeAsked]
  refine performAll_settle ((Moves.isLater (steps_respond _ call).moves).issued ?_) call cs
  rw [fabric_note, fabric_notePublished]
  exact hk

end Site

namespace Deployment

theorem run_commands (d : Deployment) (cs : List Command) :
    Run d { d with site := d.site.performAll cs } := by
  induction cs generalizing d with
  | nil => exact .refl
  | cons c cs ih => exact .head (.act d .prompt (.command c)) (ih { d with site := _ })

/-- Callbacks only have to yield, panic or delete somebody: where one asks for other commands
before it returns, a run comes to the same with the commands next after the delivery. -/
theorem Reachable.run_takeAsked {d : Deployment} (hd : d.Reachable) {delivery : Delivery}
    {fabric : Fabric} (hn : d.site.fabric.next? = some (delivery, fabric))
    (hen : fabric.isEnabled delivery.target = true) {l l' : DiscoveryListener}
    (hl : d.site.listeners.find? delivery.target = some (.discovery l)) {call : Call}
    (hcall : l.receive delivery.notification = (l', some call)) (cs : List Command) :
    Run d { d with site := { d.site with fabric }.takeAsked delivery l l' call cs } := by
  have hstep : d.site.step? = some ({ d.site with fabric }.deliver delivery) := by
    simp only [Site.step?, hn, Option.map_some]
  obtain ⟨hqueue, hrest⟩ := Fabric.next?_eq_some hn
  have hissued : fabric.Issued delivery.target := by
    rw [hrest]
    exact hd.sound.fabric.target (hqueue ▸ List.mem_cons_self)
  rw [← Site.performAll_deliver (s := { d.site with fabric }) hissued hen hl hcall cs]
  exact .head (.deliver hstep) (run_commands { d with site := _ } cs)

end Deployment

end Rendezvous
