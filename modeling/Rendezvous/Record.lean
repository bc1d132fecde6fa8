import Rendezvous.Endpoint
import Rendezvous.GuidPrefix
import Rendezvous.Handle
import Rendezvous.Topic

/-!
# Discovery records and events

A record describes a participant, or a reader or writer, to a host. An event says that
what a record describes was discovered or removed. Each event belongs to one of six
categories.
-/

namespace Rendezvous

inductive EntityKind where
  | reader
  | writer
  deriving DecidableEq, Repr

structure ParticipantRecord where
  participant : Handle
  guidPrefix : GuidPrefix
  endpoint : Endpoint
  deriving DecidableEq, Repr

structure EntityRecord where
  topicName : BoundedName
  typeName : BoundedName
  /-- The prefix of the participant that owns it. -/
  guidPrefix : GuidPrefix
  endpoint : Endpoint
  deriving DecidableEq, Repr

def EntityRecord.hostTopic (r : EntityRecord) : String := Topic.hostName r.topicName

def ParticipantRecord.toJson (r : ParticipantRecord) : Json :=
  .object [
    ("participant", .natural r.participant.number),
    ("guid_prefix", .string r.guidPrefix.text),
    ("endpoint", r.endpoint.toJson)]

def EntityRecord.toJson (r : EntityRecord) : Json :=
  .object [
    ("topic_name", .string r.topicName.text),
    ("type_name", .string r.typeName.text),
    ("guid_prefix", .string r.guidPrefix.text),
    ("endpoint", r.endpoint.toJson)]

inductive Record where
  | participant (record : ParticipantRecord)
  | entity (kind : EntityKind) (record : EntityRecord)
  deriving DecidableEq, Repr

namespace Record

/-- The prefix of the participant described, or of the owner. -/
def guidPrefix : Record → GuidPrefix
  | .participant r => r.guidPrefix
  | .entity _ r => r.guidPrefix

def endpoint : Record → Endpoint
  | .participant r => r.endpoint
  | .entity _ r => r.endpoint

/-- The participant described; readers and writers name none. -/
def participant? : Record → Option Handle
  | .participant r => some r.participant
  | .entity _ _ => none

def toJson : Record → Json
  | .participant r => r.toJson
  | .entity _ r => r.toJson

end Record

inductive Change where
  | discovered
  | removed
  deriving DecidableEq, Repr

inductive Category where
  | participantDiscovered
  | participantRemoved
  | readerDiscovered
  | readerRemoved
  | writerDiscovered
  | writerRemoved
  deriving DecidableEq, Repr

namespace Category

def all : List Category :=
  [.participantDiscovered, .participantRemoved, .readerDiscovered, .readerRemoved,
    .writerDiscovered, .writerRemoved]

theorem mem_all (c : Category) : c ∈ all := by cases c <;> decide

def ofParticipant : Change → Category
  | .discovered => .participantDiscovered
  | .removed => .participantRemoved

def ofEntity : EntityKind → Change → Category
  | .reader, .discovered => .readerDiscovered
  | .reader, .removed => .readerRemoved
  | .writer, .discovered => .writerDiscovered
  | .writer, .removed => .writerRemoved

def name : Category → String
  | .participantDiscovered => "participant-discovered"
  | .participantRemoved => "participant-removed"
  | .readerDiscovered => "reader-discovered"
  | .readerRemoved => "reader-removed"
  | .writerDiscovered => "writer-discovered"
  | .writerRemoved => "writer-removed"

def ofName? (name : String) : Option Category := all.find? (·.name == name)

end Category

/-- Something described was discovered or removed. -/
structure Event where
  change : Change
  record : Record
  deriving DecidableEq, Repr

def Event.category (e : Event) : Category :=
  match e.record with
  | .participant _ => .ofParticipant e.change
  | .entity kind _ => .ofEntity kind e.change

end Rendezvous
