import Rendezvous.Graph
import Rendezvous.Notification
import Rendezvous.Registry

/-!
# Discovery listeners

A discovery listener turns notifications into events. It folds every event into its
graph, if it has one, then calls what the registry binds to the category of the event,
and counts what became of it. A call is made in two steps, so that what the callback
does can come in between: the event is taken in, and the call is settled once the
callback is done. Counts have no bound; counters of 64 bits agree with them for as long as
no listener hears that many notifications.
-/

namespace Rendezvous

/-- How often what became of a notification. -/
structure Stats where
  dispatched : Nat
  unbound : Nat
  /-- A mere change of quality of service. -/
  qosChanges : Nat
  failed : Nat
  /-- A record was made of a locator kind that is not understood. -/
  unknownTransport : Nat
  deriving DecidableEq, Repr

def Stats.zero : Stats := ⟨0, 0, 0, 0, 0⟩

/-- A callback that is to be given an event. -/
structure Call where
  binding : Binding
  event : Event
  deriving DecidableEq, Repr

/-- A listener that folds events into a graph and calls what is bound. -/
structure DiscoveryListener where
  registry : Registry
  graph : Option Graph
  stats : Stats

namespace DiscoveryListener

def new (registry : Registry) (graph : Option Graph) : DiscoveryListener :=
  ⟨registry, graph, .zero⟩

def countUnbound (l : DiscoveryListener) : DiscoveryListener :=
  { l with stats := { l.stats with unbound := l.stats.unbound + 1 } }

def countQosChange (l : DiscoveryListener) : DiscoveryListener :=
  { l with stats := { l.stats with qosChanges := l.stats.qosChanges + 1 } }

/-- Make the record of an event: a transport that is not understood is counted, and the graph
takes the event in. -/
def observe (l : DiscoveryListener) (e : Event) : DiscoveryListener :=
  { l with
    graph := l.graph.map (·.apply e)
    stats := { l.stats with
      unknownTransport := l.stats.unknownTransport + e.record.endpoint.isUnknown.toNat } }

/-- Take a notification in, and say what is to be called. Without a graph, no record is made for
a category that is not bound. -/
def receive (l : DiscoveryListener) (n : Notification) : DiscoveryListener × Option Call :=
  match n.event? with
  | none => (l.countQosChange, none)
  | some e =>
      match l.registry.binding e.category with
      | none => (if l.graph.isSome then (l.observe e).countUnbound else l.countUnbound, none)
      | some b => (l.observe e, some ⟨b, e⟩)

def settle (l : DiscoveryListener) (response : Response) : DiscoveryListener :=
  match response with
  | .panics => { l with stats := { l.stats with failed := l.stats.failed + 1 } }
  | .yields => { l with stats := { l.stats with dispatched := l.stats.dispatched + 1 } }
  | .deletes => { l with stats := { l.stats with dispatched := l.stats.dispatched + 1 } }

end DiscoveryListener

/-- What a callback does after it has taken note of a record; callbacks given C data return. -/
def Callback.response : Callback → Response
  | .native _ response => response
  | .foreign _ => .yields

end Rendezvous
