import Rendezvous.Config
import Rendezvous.Site.Timing

/-!
# Contexts

A context runs at most one discovery server. Starting a server replaces the one that
runs; stopping it deletes it. When a context is asked to stop a server that it does not
run, it joins the domain for a while with a recovery participant, which deletes every
participant that carries the server prefix. Who runs a server is written down in a store,
where other contexts look it up.

After the creation, the closing or the deletion of a participant, deliveries may be made
before the context goes on; an operation that fails at once makes none.
-/

namespace Rendezvous

structure Running where
  domain : UInt32
  handle : Handle
  deriving DecidableEq, Repr

structure Context where
  config : Config
  store : Store
  server : Option Running

inductive StopOutcome where
  /-- The context ran the server, and deleted it. -/
  | stopped
  /-- The context did not run it; so many participants carried the server prefix. -/
  | recoveryAttempted (matched : Nat)
  deriving DecidableEq, Repr

def Config.Qos.profile (q : Config.Qos) : Profile := ⟨q.guidPrefix, none, q.locators⟩

namespace Site

/-- Save a server record; a failure is told and nothing more. -/
def saveRecord (s : Site) (store : Store) (record : ServerRecord) : Site :=
  match store.save s.storage record with
  | (storage, .ok ()) => { s with storage }
  | (storage, .error e) => { s with storage }.note (.noticed (.recordNotSaved record.domain e))

/-- Clear the record of a domain; a failure is told and nothing more. -/
def clearRecord (s : Site) (store : Store) (domain : UInt32) : Site :=
  match store.clear s.storage domain with
  | (storage, .ok ()) => { s with storage }
  | (storage, .error e) => { s with storage }.note (.noticed (.recordNotCleared domain e))

def clearStaleRecord (s : Site) (store : Store) (domain : UInt32) : Site :=
  match store.load s.storage domain with
  | .ok (some record) =>
      if s.processes.isAlive record.pid then s else s.clearRecord store domain
  | _ => s

def matchedBy (s : Site) (h : Handle) : Nat :=
  match s.listeners.find? h with
  | some (.recovery _ matched) => matched
  | _ => 0

def discoveryListener? (s : Site) (h : Handle) : Option DiscoveryListener :=
  match s.listeners.find? h with
  | some (.discovery l) => some l
  | _ => none

end Site

namespace Context

def new (config : Config) (store : Store) : Except BridgeError Context :=
  match config.validate with
  | .ok () => .ok ⟨config, store, none⟩
  | .error e => .error (.config e)

/-- Take down the server that a new one replaces. -/
def discard (c : Context) (t : Timing) (s : Site) (previous : Running) : Site :=
  let s := s.note (.noticed (.serverReplaced previous.handle previous.domain))
  let s := t.pause .closed (s.close previous.handle)
  let s := t.pause .deleted (s.delete previous.handle).1
  s.clearRecord c.store previous.domain

def discardHeld (c : Context) (t : Timing) (s : Site) : Site :=
  match c.server with
  | none => s
  | some previous => c.discard t s previous

def serverListener (c : Context) (registry : Registry) : Listener :=
  .discovery (.new registry (some (.new c.config.includeInternals)))

/-- Run a server on a domain, in place of the one that runs. What is bound stays bound for as
long as the server runs. -/
def start (c : Context) (t : Timing) (s : Site) (domain : UInt32) (registry : Registry) :
    Context × Site × Except BridgeError Handle :=
  let s := (c.discardHeld t s).note (.noticed (.serverStarting domain registry))
  match s.create domain c.config.serverQos.profile (c.serverListener registry) with
  | (s, none) => ({ c with server := none }, s, .error (.creationFailure domain))
  | (s, some h) =>
      let s := t.pause .created s
      let s := s.note (.noticed (.serverStarted c.config.serverPrefix domain h))
      let record := ServerRecord.started s.processes domain c.config.serverPrefix
      ({ c with server := some ⟨domain, h⟩ }, s.saveRecord c.store record, .ok h)

/-- Stop the server of another context: join the domain with a recovery participant, which
deletes the servers that it discovers, wait a while, and leave again. A server that is not
discovered in time goes on. -/
def recover (c : Context) (t : Timing) (s : Site) (domain : UInt32) :
    Site × Except BridgeError StopOutcome :=
  match s.create domain c.config.recoveryQos.profile (.recovery c.config.serverPrefix 0) with
  | (s, none) => (s, .error (.creationFailure domain))
  | (s, some h) =>
      let s := t.pause .waiting s
      let s := t.pause .deleted (s.delete h).1
      let matched := s.matchedBy h
      let s :=
        if 0 < matched then s.clearRecord c.store domain else s.clearStaleRecord c.store domain
      (s, .ok (.recoveryAttempted matched))

def serverOn? (c : Context) (domain : UInt32) : Option Running :=
  c.server.filter (·.domain == domain)

/-- Stop the server of a domain, whoever runs it. -/
def stop (c : Context) (t : Timing) (s : Site) (domain : UInt32) :
    Context × Site × Except BridgeError StopOutcome :=
  match c.serverOn? domain with
  | some running =>
      match s.delete running.handle with
      | (s, .error e) => (c, s, .error (.deletionFailure domain e))
      | (s, .ok ()) =>
          let s := (t.pause .deleted s).note (.noticed (.serverStopped domain))
          ({ c with server := none }, s.clearRecord c.store domain, .ok .stopped)
  | none =>
      let (s, result) := c.recover t s domain
      (c, s, result)

/-- Whether a server runs on a domain, as far as the context and its store know. -/
def isRunning (c : Context) (s : Site) (domain : UInt32) : Bool :=
  if (c.serverOn? domain).any (s.fabric.isEnabled ·.handle) then true
  else
    match c.store.load s.storage domain with
    | .ok (some record) => s.processes.isAlive record.pid
    | _ => false

/-- What becomes of a site when a context is given up: its server is deleted. -/
def drop (c : Context) (t : Timing) (s : Site) : Site :=
  match c.server with
  | none => s
  | some running =>
      match s.delete running.handle with
      | (s, .ok ()) =>
          let s := (t.pause .deleted s).note
            (.noticed (.serverDropped running.handle running.domain))
          s.clearRecord c.store running.domain
      | (s, .error _) => s

end Context

end Rendezvous
