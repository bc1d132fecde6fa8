/-!
# Well-known ports of a domain

Each domain has a block of ports: two for multicast, and two for each participant. They are
numbers here, and computed without a bound; in words of 32 bits the same sums come out as
long as the ports fit.
-/

namespace Rendezvous

structure DomainPorts where
  discoveryMulticast : Nat
  userMulticast : Nat
  discoveryUnicast : Nat
  userUnicast : Nat
  deriving DecidableEq, Repr

namespace DomainPorts

/-- The first port of a domain's block. -/
def base (domain : UInt32) : Nat := 7400 + 250 * domain.toNat

def ofDomain (domain participant : UInt32) : DomainPorts where
  discoveryMulticast := base domain
  userMulticast := base domain + 1
  discoveryUnicast := base domain + 10 + 2 * participant.toNat
  userUnicast := base domain + 11 + 2 * participant.toNat

/-- The port for user data of a participant, computed in words of 32 bits. -/
def userUnicastWord (domain participant : UInt32) : UInt32 :=
  7400 + 250 * domain + 11 + 2 * participant

theorem toNat_userUnicastWord {domain participant : UInt32}
    (h : (ofDomain domain participant).userUnicast < UInt32.size) :
    (userUnicastWord domain participant).toNat = (ofDomain domain participant).userUnicast := by
  simp only [ofDomain, base, UInt32.size] at h ⊢
  simp only [userUnicastWord, UInt32.toNat_add, UInt32.toNat_mul, UInt32.reduceToNat]
  omega

end DomainPorts

end Rendezvous
