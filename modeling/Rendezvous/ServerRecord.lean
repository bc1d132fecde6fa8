import Rendezvous.GuidPrefix
import Rendezvous.Json.Record
import Rendezvous.Json.Value

/-!
# Server records

A record says which process runs the discovery server of a domain. It counts for as long
as that process exists.
-/

namespace Rendezvous

open Text

/-- Who runs the discovery server of a domain. -/
structure ServerRecord where
  domain : UInt32
  pid : UInt32
  guidPrefix : GuidPrefix
  /-- Milliseconds since 1970. -/
  startedAt : UInt64
  deriving DecidableEq, Repr

structure ProcessTable where
  own : UInt32
  others : List UInt32
  /-- Milliseconds since 1970. -/
  now : UInt64

/-- Whether a process exists; numbers that need all 32 bits, and zero, name none. -/
def ProcessTable.isAlive (t : ProcessTable) (pid : UInt32) : Bool :=
  0 < pid && pid.toNat < UInt32.size / 2 && (pid == t.own || t.others.contains pid)

namespace ServerRecord

def started (t : ProcessTable) (domain : UInt32) (guidPrefix : GuidPrefix) : ServerRecord :=
  ⟨domain, t.own, guidPrefix, t.now⟩

def toJson (r : ServerRecord) : Json :=
  .object [
    ("domain_id", .natural r.domain.toNat),
    ("pid", .natural r.pid.toNat),
    ("guid_prefix", .string r.guidPrefix.text),
    ("started_at_ms", .natural r.startedAt.toNat)]

structure Draft where
  domain : Option UInt32
  pid : Option UInt32
  guidPrefix : Option GuidPrefix
  startedAt : Option UInt64

def readPrefix : Json.Reader GuidPrefix := Json.readParsed "a string" GuidPrefix.parse

/-- How a record is read: all fields are required. -/
def schema : Json.Schema Draft ServerRecord where
  label := "struct ServerRecord"
  fields := [
    .of "domain_id" (·.domain) (fun v d => { d with domain := some v }) Json.readUInt32,
    .of "pid" (·.pid) (fun v d => { d with pid := some v }) Json.readUInt32,
    .of "guid_prefix" (·.guidPrefix) (fun v d => { d with guidPrefix := some v }) readPrefix,
    .of "started_at_ms" (·.startedAt) (fun v d => { d with startedAt := some v })
      Json.readUInt64]
  blank := ⟨none, none, none, none⟩
  finish d := do
    let some domain := d.domain | .error "domain_id"
    let some pid := d.pid | .error "pid"
    let some guidPrefix := d.guidPrefix | .error "guid_prefix"
    let some startedAt := d.startedAt | .error "started_at_ms"
    .ok ⟨domain, pid, guidPrefix, startedAt⟩

end ServerRecord

end Rendezvous
