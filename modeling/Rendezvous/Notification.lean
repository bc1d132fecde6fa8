import Rendezvous.Locator
import Rendezvous.Record

/-!
# Notifications

What a fabric tells the listeners of its participants: that a participant, or a reader or
writer of one, was discovered, changed its quality of service, or was removed. A
notification that is no mere change of quality makes an event, of which the record shows
bounded names and the first unicast locator alone.
-/

namespace Rendezvous

inductive DiscoveryStatus where
  | discovered
  | changedQos
  | removed
  deriving DecidableEq, Repr

def DiscoveryStatus.name : DiscoveryStatus → String
  | .discovered => "Discovered"
  | .changedQos => "ChangedQos"
  | .removed => "Removed"

structure RemoteLocators where
  unicast : List Locator
  multicast : List Locator
  deriving DecidableEq, Repr

/-- The four bytes that identify a reader or writer of a participant. -/
structure EntityId where
  bytes : Vector UInt8 4
  deriving DecidableEq, Repr

namespace EntityId

def kindByte : EntityKind → UInt8
  | .reader => 0x04
  | .writer => 0x03

def ofNumber (kind : EntityKind) (n : UInt16) : EntityId :=
  ⟨#v[0, (n >>> 8).toUInt8, n.toUInt8, kindByte kind]⟩

end EntityId

/-- A reader or writer as its participant announces it. -/
structure Entity where
  id : EntityId
  kind : EntityKind
  topicName : String
  typeName : String
  locators : RemoteLocators
  deriving DecidableEq, Repr

structure Profile where
  guidPrefix : GuidPrefix
  name : Option String
  locators : List Locator
  deriving DecidableEq, Repr

inductive Subject where
  | participant (handle : Handle) (profile : Profile)
  | entity (owner : GuidPrefix) (entity : Entity)
  deriving DecidableEq, Repr

/-- A word from a fabric to a listener. -/
structure Notification where
  status : DiscoveryStatus
  subject : Subject
  deriving DecidableEq, Repr

def Subject.record : Subject → Record
  | .participant handle profile =>
      .participant ⟨handle, profile.guidPrefix, .ofFirst profile.locators⟩
  | .entity owner e =>
      .entity e.kind
        ⟨.ofString e.topicName, .ofString e.typeName, owner, .ofFirst e.locators.unicast⟩

def Notification.event? (n : Notification) : Option Event :=
  match n.status with
  | .discovered => some ⟨.discovered, n.subject.record⟩
  | .removed => some ⟨.removed, n.subject.record⟩
  | .changedQos => none

end Rendezvous
