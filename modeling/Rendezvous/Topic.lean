import Rendezvous.Name

/-!
# Topic names

Names on the wire carry a mark that says what they are for. Hosts see the name without
that mark and with a slash in front. Three topics are internal to the system.
-/

namespace Rendezvous.Topic

/-- The marks in front of a name on the wire: topics, replies and requests. -/
def marks : List (List Char) := [['r', 't', '/'], ['r', 'r', '/'], ['r', 'q', '/']]

def unmark (name : List Char) : List Char :=
  if marks.any (·.isPrefixOf name) then name.drop 3 else name

def root (name : List Char) : List Char :=
  if name.head? = some '/' then name else '/' :: name

/-- The name that hosts see. -/
def hostName (name : BoundedName) : String := String.ofList (root (unmark name.chars))

def internals : List String := ["/rosout", "/parameter_events", "/ros_discovery_info"]

/-- Whether a name, as hosts see it, is internal. -/
def isInternal (name : String) : Bool := internals.contains name

end Rendezvous.Topic
