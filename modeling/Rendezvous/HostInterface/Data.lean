import Rendezvous.Record

/-!
# Records as C data

The forms in which C hosts are given records: fixed-size buffers, of which the unused
part is zero. A name is followed by at least one zero byte, which ends it.
-/

namespace Rendezvous.HostInterface

/-- The size of a name buffer, with the byte that ends the name. -/
def nameCapacity : Nat := nameLimit + 1

/-- An endpoint: the code of its transport, and its address bytes in front of zeros. -/
structure EndpointData where
  transport : UInt32
  address : Vector UInt8 16
  deriving DecidableEq, Repr

structure ParticipantData where
  participant : UInt64
  guidPrefix : Vector UInt8 12
  endpoint : EndpointData
  deriving DecidableEq, Repr

structure EntityData where
  topicName : Vector UInt8 nameCapacity
  typeName : Vector UInt8 nameCapacity
  guidPrefix : Vector UInt8 12
  endpoint : EndpointData
  deriving DecidableEq, Repr

/-- A buffer that starts with the given bytes and ends with zeros. -/
def buffer (size : Nat) (bytes : Array UInt8) : Vector UInt8 size :=
  .ofFn fun i => bytes[i.val]?.getD 0

def EndpointData.of (e : Endpoint) : EndpointData :=
  ⟨e.transport.code, buffer 16 e.octets.toArray⟩

def ParticipantData.of (r : ParticipantRecord) : ParticipantData :=
  ⟨.ofNat r.participant.number, r.guidPrefix.bytes, .of r.endpoint⟩

def nameBuffer (n : BoundedName) : Vector UInt8 nameCapacity :=
  buffer nameCapacity n.bytes.toArray

def EntityData.of (r : EntityRecord) : EntityData :=
  ⟨nameBuffer r.topicName, nameBuffer r.typeName, r.guidPrefix.bytes, .of r.endpoint⟩

/-- The bytes of a buffer before its first zero. -/
def textOf {size : Nat} (buffer : Vector UInt8 size) : List UInt8 :=
  buffer.toList.takeWhile (· ≠ 0)

/-- A record of either sort as C data. -/
inductive Data where
  | participant (data : ParticipantData)
  | entity (data : EntityData)
  deriving DecidableEq, Repr

def Data.of : Record → Data
  | .participant r => .participant (.of r)
  | .entity _ r => .entity (.of r)

end Rendezvous.HostInterface
