import Rendezvous.HostInterface.Data
import Rendezvous.Command
import Rendezvous.Listener
import Rendezvous.Store

/-!
# Sites

A site is a fabric with all that acts on it from inside: the listeners of its
participants, the storage of server records, and the process that all of this runs in.
What is seen to happen goes into a journal. Deliveries are made one at a time; what a
listener does meanwhile may queue more of them.

A delivery is made at once, with all that the listener does upon it. The thread that makes
deliveries, its waiting and its end are not modelled, and neither is that whoever closes or
deletes a participant, or waits for a limited time until the queue is empty, waits for a
delivery that is just being made.
-/

namespace Rendezvous

inductive Listener where
  /-- It feeds a graph and calls what the host has bound. -/
  | discovery (listener : DiscoveryListener)
  /-- It deletes every participant discovered with the target prefix, and counts them. -/
  | recovery (target : GuidPrefix) (matched : Nat)
  | scripted (label : String) (script : Script)

/-- The weight of what a listener has still to do. -/
def Listener.weight : Listener → Nat
  | .scripted _ script => scriptWeight script
  | _ => 0

def Listener.label? : Listener → Option String
  | .scripted label _ => some label
  | _ => none

inductive Notice where
  | participantJoined (handle : Handle) (guidPrefix : GuidPrefix) (domain : UInt32)
  | participantClosed (handle : Handle)
  | participantDeleted (handle : Handle)
  | graphPublished (version participants topics : Nat)
  /-- A server is about to be started with what is bound. -/
  | serverStarting (domain : UInt32) (registry : Registry)
  | serverStarted (guidPrefix : GuidPrefix) (domain : UInt32) (handle : Handle)
  | recordNotSaved (domain : UInt32) (e : StoreError)
  | serverStopped (domain : UInt32)
  /-- A server is about to be taken down, as another one is to be started. -/
  | serverReplaced (handle : Handle) (domain : UInt32)
  /-- The server of a context that was given up is deleted. -/
  | serverDropped (handle : Handle) (domain : UInt32)
  | recordNotCleared (domain : UInt32) (e : StoreError)
  deriving DecidableEq, Repr

inductive Sighting where
  /-- A notification reached a listener; listeners with a script are known by a label. -/
  | delivered (delivery : Delivery) (label : Option String)
  | replied (label : String) (reply : Reply)
  | called (listener : Handle) (call : Call)
  | calledForeign (listener : Handle) (category : Category) (function : Nat) (context : String)
      (data : HostInterface.Data)
  /-- A callback, known by its label, asked for a participant to be deleted. -/
  | deleted (label : String) (result : Except FabricError Unit)
  | noticed (notice : Notice)

/-- A fabric with all that acts on it from inside. -/
structure Site where
  fabric : Fabric
  /-- The listeners of the participants; they are kept when the participant is gone. -/
  listeners : OrderedMap Handle Listener
  /-- What was seen to happen, the latest in front. -/
  seen : List Sighting
  storage : Storage
  processes : ProcessTable

namespace Site

def new (storage : Storage) (processes : ProcessTable) : Site :=
  ⟨.empty, .empty, [], storage, processes⟩

def note (s : Site) (sighting : Sighting) : Site := { s with seen := sighting :: s.seen }

/-- What was seen to happen, the earliest in front. -/
def journal (s : Site) : List Sighting := s.seen.reverse

@[simp] theorem journal_note (s : Site) (sighting : Sighting) :
    (s.note sighting).journal = s.journal ++ [sighting] := by
  simp [note, journal]

def forget (s : Site) : Site := { s with seen := [] }

def setListener (s : Site) (h : Handle) (l : Listener) : Site :=
  { s with listeners := s.listeners.insert h l }

def noteJoined (s : Site) (h : Handle) (profile : Profile) (domain : UInt32) : Site :=
  s.note (.noticed (.participantJoined h profile.guidPrefix domain))

def join (s : Site) (domain : UInt32) (profile : Profile) : Site × Handle :=
  let (fabric, h) := s.fabric.join domain profile false
  ({ s with fabric }.noteJoined h profile domain, h)

/-- Create a participant with a listener, unless its creation is refused. -/
def create (s : Site) (domain : UInt32) (profile : Profile) (l : Listener) :
    Site × Option Handle :=
  match s.fabric.create domain profile with
  | (fabric, none) => ({ s with fabric }, none)
  | (fabric, some h) => (({ s with fabric }.setListener h l).noteJoined h profile domain, some h)

def delete (s : Site) (h : Handle) : Site × Except FabricError Unit :=
  match s.fabric.delete h with
  | .ok fabric => ({ s with fabric }.note (.noticed (.participantDeleted h)), .ok ())
  | .error e => (s, .error e)

def close (s : Site) (h : Handle) : Site :=
  if s.fabric.isEnabled h then
    { s with fabric := s.fabric.close h }.note (.noticed (.participantClosed h))
  else s

/-! ## Commands -/

/-- The site after a fabric did or refused something, and the reply. -/
def replyWith (s : Site) : Except FabricError Fabric → Site × Reply
  | .ok fabric => ({ s with fabric }, .done)
  | .error e => (s, .failed e)

/-- Announce a reader or writer a number of times over; the last reply counts. -/
def addEntities (s : Site) (owner : Handle) (kind : EntityKind) (topicName typeName : String)
    (locators : RemoteLocators) : Nat → Reply → Site × Reply
  | 0, reply => (s, reply)
  | copies + 1, _ =>
      match s.fabric.addEntity owner kind topicName typeName locators with
      | .ok (fabric, id) =>
          addEntities { s with fabric } owner kind topicName typeName locators copies (.entity id)
      | .error e => addEntities s owner kind topicName typeName locators copies (.failed e)

def perform (s : Site) : Command → Site × Reply
  | .addPeer domain profile =>
      let (s, h) := s.join domain profile
      (s, .participant h)
  | .create domain profile label script =>
      match s.create domain profile (.scripted label script) with
      | (s, some h) => (s, .participant h)
      | (s, none) => (s, .nothing)
  | .addEntity owner kind topicName typeName locators copies =>
      s.addEntities owner kind topicName typeName locators copies .nothing
  | .removeEntity owner id => s.replyWith (s.fabric.removeEntity owner id)
  | .updateQos h => s.replyWith (s.fabric.updateQos h)
  | .close h => (s.close h, .done)
  | .delete h =>
      match s.delete h with
      | (s, .ok ()) => (s, .done)
      | (s, .error e) => (s, .failed e)
  | .failNextCreate => ({ s with fabric := { s.fabric with failNextCreate := true } }, .done)
  | .refuseDeletes on => ({ s with fabric := { s.fabric with refuseDeletes := on } }, .done)
  | .contains h => (s, .truth (s.fabric.contains h))
  | .isEnabled h => (s, .truth (s.fabric.isEnabled h))
  | .count domain => (s, .number (s.fabric.count domain))
  | .panic => (s, .nothing)

/-- Do what a listener with a script asks upon one notification; a panic ends it. -/
def takeTurn (s : Site) (label : String) : List Command → Site
  | [] => s
  | .panic :: _ => s
  | c :: turn =>
      let (s, reply) := s.perform c
      (s.note (.replied label reply)).takeTurn label turn

/-! ## Deliveries -/

/-- The participant that a callback asks to delete: the one described, or none at all. -/
def victim (e : Event) : Handle := e.record.participant?.getD .null

/-- What a callback does once it is called. -/
def respond (s : Site) (call : Call) : Site :=
  match call.binding.callback with
  | .native label .deletes =>
      let (s, result) := s.delete (victim call.event)
      s.note (.deleted label result)
  | _ => s

def sighting (listener : Handle) (call : Call) : Sighting :=
  match call.binding.callback with
  | .native _ _ => .called listener call
  | .foreign function =>
      .calledForeign listener call.event.category function call.binding.context
        (.of call.event.record)

/-- Count a call whose callback is done. -/
def settle (s : Site) (h : Handle) (call : Call) : Site :=
  { s with listeners := s.listeners.modify h fun
      | .discovery l => .discovery (l.settle call.binding.callback.response)
      | l => l }

def invoke (s : Site) (h : Handle) (call : Call) : Site :=
  ((s.note (sighting h call)).respond call).settle h call

/-- Tell what the graph of a listener has published in between. -/
def notePublished (s : Site) (before after : DiscoveryListener) : Site :=
  match before.graph, after.graph with
  | some old, some new =>
      if old.version = new.version then s
      else
        s.note (.noticed (.graphPublished new.version new.latest.participants.length
          new.latest.topics.length))
  | _, _ => s

/-- Whether a notification says that a participant with a prefix was discovered. -/
def discovers? (target : GuidPrefix) (n : Notification) : Option Handle :=
  match n.status, n.subject with
  | .discovered, .participant h profile => if profile.guidPrefix = target then some h else none
  | _, _ => none

def hear (s : Site) (h : Handle) (l : Listener) (n : Notification) : Site :=
  match l with
  | .discovery l =>
      match l.receive n with
      | (l', none) => (s.setListener h (.discovery l')).notePublished l l'
      | (l', some call) => ((s.setListener h (.discovery l')).notePublished l l').invoke h call
  | .recovery target matched =>
      match discovers? target n with
      | none => s
      | some server => ((s.setListener h (.recovery target (matched + 1))).delete server).1
  | .scripted label script =>
      (s.setListener h (.scripted label script.tail)).takeTurn label (script.head?.getD [])

/-- Make one delivery; it is dropped if the participant does not take part in its domain. -/
def deliver (s : Site) (d : Delivery) : Site :=
  if s.fabric.isEnabled d.target then
    match s.listeners.find? d.target with
    | none => s
    | some l => (s.note (.delivered d l.label?)).hear d.target l d.notification
  else s

/-- Make the delivery that is due, if there is one. -/
def step? (s : Site) : Option Site :=
  s.fabric.next?.map fun (d, fabric) => { s with fabric }.deliver d

end Site

end Rendezvous
