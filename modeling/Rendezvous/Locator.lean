import Rendezvous.Address

/-!
# Locators

A locator is an address as announced on the wire: a transport kind, a port and sixteen
bytes, of which the transports over the shorter addresses use the last four.
-/

namespace Rendezvous

structure Locator where
  kind : Int32
  port : UInt32
  address : Vector UInt8 16
  deriving DecidableEq, Repr

namespace Locator

def kindInvalid : Int32 := -1

def kindUdpV4 : Int32 := 1

def kindUdpV6 : Int32 := 2

def kindTcpV4 : Int32 := 4

def kindTcpV6 : Int32 := 8

def kindShm : Int32 := 16

def addressLength : Nat := 16

def addressBytes : Address → Vector UInt8 16
  | .v4 octets => (Vector.replicate 12 (0 : UInt8) ++ octets : Vector UInt8 (12 + 4))
  | .v6 octets => octets

/-- The locator of an address for a pair of kinds, one for each family. -/
def ofAddress (kindV4 kindV6 : Int32) (address : Address) (port : UInt16) : Locator where
  kind := match address with
    | .v4 _ => kindV4
    | .v6 _ => kindV6
  port := port.toUInt32
  address := addressBytes address

def udp (address : Address) (port : UInt16) : Locator :=
  ofAddress kindUdpV4 kindUdpV6 address port

def tcp (address : Address) (port : UInt16) : Locator :=
  ofAddress kindTcpV4 kindTcpV6 address port

/-- A shared-memory locator, which has no address. -/
def shm (port : UInt32) : Locator := ⟨kindShm, port, .replicate 16 0⟩

def v4Octets (l : Locator) : Vector UInt8 4 := l.address.drop 12

end Locator

end Rendezvous
