import Rendezvous.Context

/-!
# The interface for C hosts

Hosts written in C drive one context, installed once for the whole process. They bind
callbacks ahead of time; each start takes the bindings as they are at that moment. Every
function answers with a status. Setting up the log is left out, but for the status of a set-up
that comes too late.
-/

namespace Rendezvous.HostInterface

/-- What the interface keeps for the process. -/
structure Bridge where
  installed : Option Context
  /-- The bindings that the next start takes. -/
  pending : Registry

namespace Bridge

def initial : Bridge := ⟨none, .empty⟩

def dropInstalled (b : Bridge) (t : Timing) (s : Site) : Site :=
  match b.installed with
  | none => s
  | some c => c.drop t s

/-- Install a context in place of the one installed; a configuration of no use changes nothing. -/
def install (b : Bridge) (t : Timing) (s : Site) (config : Config) (store : Store) :
    Bridge × Site × Except BridgeError Unit :=
  match Context.new config store with
  | .error e => (b, s, .error e)
  | .ok c => ({ b with installed := some c }, b.dropInstalled t s, .ok ())

/-- Bind a category for the starts to come, or clear it. -/
def bind (b : Bridge) (category : Category) (function : Option Nat) (context : Option String) :
    Bridge × Status :=
  match b.pending.set category (function.map .foreign) context with
  | .ok pending => ({ b with pending }, .ok)
  | .error e => (b, .ofError e)

/-- Start a server with the callbacks bound so far. -/
def start (b : Bridge) (t : Timing) (s : Site) (domain : UInt32) : Bridge × Site × Status :=
  match b.installed with
  | none => (b, s, .notInitialized)
  | some c =>
      let (c, s, result) := c.start t s domain b.pending
      ({ b with installed := some c }, s, .ofResult result)

def stop (b : Bridge) (t : Timing) (s : Site) (domain : UInt32) : Bridge × Site × Status :=
  match b.installed with
  | none => (b, s, .notInitialized)
  | some c =>
      let (c, s, result) := c.stop t s domain
      ({ b with installed := some c }, s, .ofResult result)

/-- Whether a server runs on a domain; none does before a context is installed. -/
def isRunning (b : Bridge) (s : Site) (domain : UInt32) : Bool :=
  b.installed.any (·.isRunning s domain)

/-- Give up the context installed, and clear every binding. -/
def shutdown (b : Bridge) (t : Timing) (s : Site) : Bridge × Site × Status :=
  (initial, b.dropInstalled t s,
    match b.installed with
    | some _ => .ok
    | none => .notInitialized)

end Bridge

end Rendezvous.HostInterface
