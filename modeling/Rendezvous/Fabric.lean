import Rendezvous.Error
import Rendezvous.Notification
import Rendezvous.OrderedMap
import Rendezvous.Queue

/-!
# Fabrics

A fabric joins participants to domains. Enabled participants of one domain discover each
other and each other's readers and writers: every operation queues notifications for the
listeners it concerns. A participant that is closed keeps its handle but is heard of no
more, and one that is deleted is gone.
-/

namespace Rendezvous

structure Member where
  domain : UInt32
  profile : Profile
  listens : Bool
  enabled : Bool
  /-- The readers and writers not withdrawn, the latest in front. -/
  announced : List Entity
  nextEntity : UInt16
  deriving DecidableEq

namespace Member

def new (domain : UInt32) (profile : Profile) (listens : Bool) : Member :=
  ⟨domain, profile, listens, true, [], 1⟩

/-- The readers and writers not withdrawn, the earliest in front. -/
def entities (m : Member) : List Entity := m.announced.reverse

def announce (m : Member) (e : Entity) : Member :=
  { m with announced := e :: m.announced, nextEntity := m.nextEntity + 1 }

def entity? (m : Member) (id : EntityId) : Option Entity := m.entities.find? (·.id == id)

def withdraw (m : Member) (id : EntityId) : Member :=
  { m with announced := (m.entities.eraseP (·.id == id)).reverse }

def tell (m : Member) (status : DiscoveryStatus) (e : Entity) : Notification :=
  ⟨status, .entity m.profile.guidPrefix e⟩

def tellOf (m : Member) (handle : Handle) (status : DiscoveryStatus) : Notification :=
  ⟨status, .participant handle m.profile⟩

/-- Word of all that a newcomer has to discover: the participant, then its readers and writers. -/
def introduction (m : Member) (handle : Handle) : List Notification :=
  m.tellOf handle .discovered :: m.entities.map (m.tell .discovered)

/-- Word of a departure: the readers and writers, then the participant. -/
def farewell (m : Member) (handle : Handle) : List Notification :=
  m.entities.map (m.tell .removed) ++ [m.tellOf handle .removed]

end Member

/-- A notification on its way to the listener of a participant. -/
structure Delivery where
  /-- The participant that the notification comes from. -/
  source : Handle
  /-- The participant whose listener is to hear it. -/
  target : Handle
  notification : Notification
  deriving DecidableEq

structure Fabric where
  nextHandle : Handle
  members : OrderedMap Handle Member
  failNextCreate : Bool
  refuseDeletes : Bool
  queue : Queue Delivery

namespace Fabric

def empty : Fabric := ⟨⟨1⟩, .empty, false, false, .empty⟩

def present (f : Fabric) (domain : UInt32) : List (Handle × Member) :=
  f.members.entries.filter fun e => e.2.enabled && e.2.domain == domain

/-- The participants of a domain that notifications go to, except for one. -/
def audience (f : Fabric) (domain : UInt32) (except : Handle) : List Handle :=
  ((f.present domain).filter fun e => e.2.listens && e.1 != except).map (·.1)

/-- Whether a participant is known, closed or not. -/
def contains (f : Fabric) (h : Handle) : Bool := f.members.contains h

def isEnabled (f : Fabric) (h : Handle) : Bool := (f.members.find? h).any (·.enabled)

def count (f : Fabric) (domain : UInt32) : Nat := (f.present domain).length

def send (f : Fabric) (deliveries : List Delivery) : Fabric :=
  { f with queue := f.queue.pushAll deliveries }

/-- Put the same notifications on their way to each of a list of participants. -/
def broadcast (f : Fabric) (source : Handle) (targets : List Handle)
    (notifications : List Notification) : Fabric :=
  f.send (targets.flatMap fun target => notifications.map fun n => ⟨source, target, n⟩)

/-- What a newcomer and one participant that was there before have to tell each other. -/
def exchange (newcomer : Handle) (m : Member) (other : Handle × Member) : List Delivery :=
  (if m.listens then (other.2.introduction other.1).map fun n => ⟨other.1, newcomer, n⟩
    else []) ++
  (if other.2.listens then [⟨newcomer, other.1, m.tellOf newcomer .discovered⟩] else [])

def join (f : Fabric) (domain : UInt32) (profile : Profile) (listens : Bool) :
    Fabric × Handle :=
  let h := f.nextHandle
  let m := Member.new domain profile listens
  let f' := f.send ((f.present domain).flatMap (exchange h m))
  ({ f' with nextHandle := h.next, members := f.members.insert h m }, h)

/-- Join a participant that listens, unless its creation is to be refused. -/
def create (f : Fabric) (domain : UInt32) (profile : Profile) : Fabric × Option Handle :=
  if f.failNextCreate then ({ f with failNextCreate := false }, none)
  else
    let (f, h) := f.join domain profile true
    (f, some h)

def addEntity (f : Fabric) (owner : Handle) (kind : EntityKind) (topicName typeName : String)
    (locators : RemoteLocators) : Except FabricError (Fabric × EntityId) :=
  match f.members.find? owner with
  | none => .error (.unknownParticipant owner)
  | some m =>
      let id := EntityId.ofNumber kind m.nextEntity
      let e : Entity := ⟨id, kind, topicName, typeName, locators⟩
      let f := { f with members := f.members.insert owner (m.announce e) }
      if m.enabled then
        .ok (f.broadcast owner (f.audience m.domain owner) [m.tell .discovered e], id)
      else .ok (f, id)

def removeEntity (f : Fabric) (owner : Handle) (id : EntityId) : Except FabricError Fabric :=
  match f.members.find? owner with
  | none => .error (.unknownParticipant owner)
  | some m =>
      match m.entity? id with
      | none => .error (.refused "unknown entity")
      | some e =>
          let f := { f with members := f.members.insert owner (m.withdraw id) }
          if m.enabled then
            .ok (f.broadcast owner (f.audience m.domain owner) [m.tell .removed e])
          else .ok f

def updateQos (f : Fabric) (h : Handle) : Except FabricError Fabric :=
  match f.members.find? h with
  | none => .error (.unknownParticipant h)
  | some m =>
      if m.enabled then
        .ok (f.broadcast h (f.audience m.domain h) [m.tellOf h .changedQos])
      else .ok f

def announceDeparture (f : Fabric) (h : Handle) (m : Member) : Fabric :=
  f.broadcast h (f.audience m.domain h) (m.farewell h)

/-- Close a participant; closing it again, or closing one that is not known, does nothing. -/
def close (f : Fabric) (h : Handle) : Fabric :=
  match f.members.find? h with
  | none => f
  | some m =>
      if m.enabled then
        let f := { f with members := f.members.insert h { m with enabled := false } }
        f.announceDeparture h m
      else f

def delete (f : Fabric) (h : Handle) : Except FabricError Fabric :=
  if f.refuseDeletes then .error (.refused "deletion disabled")
  else
    match f.members.find? h with
    | none => .error (.unknownParticipant h)
    | some m =>
        let f := { f with members := f.members.erase h }
        .ok (if m.enabled then f.announceDeparture h m else f)

def next? (f : Fabric) : Option (Delivery × Fabric) :=
  f.queue.pop?.map fun (d, queue) => (d, { f with queue })

end Fabric

end Rendezvous
