import Rendezvous.Fabric

/-!
# Commands

What can be asked of a fabric, by the host or by a listener in the course of a delivery,
and the replies. A participant can be created with a script: what its listener asks of
the fabric upon its first notification, its second, and so on.
-/

namespace Rendezvous

inductive Command where
  | addPeer (domain : UInt32) (profile : Profile)
  /-- Create a participant whose listener is known by a label and follows a script. -/
  | create (domain : UInt32) (profile : Profile) (label : String) (script : List (List Command))
  | addEntity (owner : Handle) (kind : EntityKind) (topicName typeName : String)
      (locators : RemoteLocators) (copies : Nat)
  | removeEntity (owner : Handle) (id : EntityId)
  | updateQos (handle : Handle)
  | close (handle : Handle)
  | delete (handle : Handle)
  | failNextCreate
  | refuseDeletes (on : Bool)
  | contains (handle : Handle)
  | isEnabled (handle : Handle)
  | count (domain : UInt32)
  /-- Ask nothing, and panic; this ends what a listener does upon one notification. -/
  | panic

/-- What the listener of a participant does upon its notifications, the first in front. -/
abbrev Script := List (List Command)

mutual

/-- A bound on the deliveries that a command makes scripts act upon. -/
def Command.weight : Command → Nat
  | .create _ _ _ script => scriptWeight script
  | _ => 0

/-- The weight of what a listener does upon one notification. -/
def turnWeight : List Command → Nat
  | [] => 0
  | c :: turn => c.weight + turnWeight turn

/-- The weight of a script: each of its turns counts once, with the scripts inside. -/
def scriptWeight : List (List Command) → Nat
  | [] => 0
  | turn :: script => turnWeight turn + 1 + scriptWeight script

end

inductive Reply where
  | participant (handle : Handle)
  | entity (id : EntityId)
  | done
  | truth (value : Bool)
  | number (value : Nat)
  /-- A creation was refused, or nothing was asked. -/
  | nothing
  | failed (e : FabricError)
  deriving DecidableEq, Repr

end Rendezvous
