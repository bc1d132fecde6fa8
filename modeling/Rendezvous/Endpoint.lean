import Rendezvous.Json.Value
import Rendezvous.Locator

/-!
# Endpoints

An endpoint is what a host learns of a locator: the transport, and only those address
bytes that mean something for it. Of a list of locators the first one alone counts.
-/

namespace Rendezvous

open Text

inductive Transport where
  | unknown
  | shm
  | udpV4
  | udpV6
  | tcpV4
  | tcpV6
  deriving DecidableEq, Repr

namespace Transport

def code : Transport → UInt32
  | .unknown => 0
  | .shm => 1
  | .udpV4 => 2
  | .udpV6 => 3
  | .tcpV4 => 4
  | .tcpV6 => 5

def name : Transport → String
  | .unknown => "unknown"
  | .shm => "shm"
  | .udpV4 => "udp_v4"
  | .udpV6 => "udp_v6"
  | .tcpV4 => "tcp_v4"
  | .tcpV6 => "tcp_v6"

end Transport

/-- A transport with the address bytes that matter for it. -/
inductive Endpoint where
  | shm
  | udpV4 (octets : Vector UInt8 4)
  | udpV6 (octets : Vector UInt8 16)
  | tcpV4 (octets : Vector UInt8 4)
  | tcpV6 (octets : Vector UInt8 16)
  | unknown (kind : Int32)
  deriving DecidableEq, Repr

namespace Endpoint

/-- The endpoint of a locator; its port plays no part. -/
def ofLocator (l : Locator) : Endpoint :=
  if l.kind = Locator.kindUdpV4 then .udpV4 l.v4Octets
  else if l.kind = Locator.kindUdpV6 then .udpV6 l.address
  else if l.kind = Locator.kindTcpV4 then .tcpV4 l.v4Octets
  else if l.kind = Locator.kindTcpV6 then .tcpV6 l.address
  else if l.kind = Locator.kindShm then .shm
  else .unknown l.kind

def ofFirst : List Locator → Endpoint
  | [] => .unknown Locator.kindInvalid
  | l :: _ => ofLocator l

def transport : Endpoint → Transport
  | .shm => .shm
  | .udpV4 _ => .udpV4
  | .udpV6 _ => .udpV6
  | .tcpV4 _ => .tcpV4
  | .tcpV6 _ => .tcpV6
  | .unknown _ => .unknown

def octets : Endpoint → List UInt8
  | .udpV4 a => a.toList
  | .tcpV4 a => a.toList
  | .udpV6 a => a.toList
  | .tcpV6 a => a.toList
  | .shm => []
  | .unknown _ => []

def address? : Endpoint → Option Address
  | .udpV4 a => some (.v4 a)
  | .tcpV4 a => some (.v4 a)
  | .udpV6 a => some (.v6 a)
  | .tcpV6 a => some (.v6 a)
  | .shm => none
  | .unknown _ => none

def isUnknown (e : Endpoint) : Bool := e.transport == .unknown

def display : Endpoint → String
  | .shm => "SHM"
  | .unknown kind => "unknown(" ++ String.ofList (decimalInt kind.toInt) ++ ")"
  | .udpV4 a => Address.text (.v4 a)
  | .tcpV4 a => Address.text (.v4 a)
  | .udpV6 a => Address.text (.v6 a)
  | .tcpV6 a => Address.text (.v6 a)

/-- What stands as the address in the JSON form; shared memory has none. -/
def jsonAddress? : Endpoint → Option Json
  | .shm => none
  | .unknown kind => some (.integer kind.toInt)
  | e => some (.array (e.octets.map fun o => Json.natural o.toNat))

def toJson (e : Endpoint) : Json :=
  .object (("transport", .string e.transport.name) ::
    (e.jsonAddress?.map fun a => ("address", a)).toList)

end Endpoint

end Rendezvous
