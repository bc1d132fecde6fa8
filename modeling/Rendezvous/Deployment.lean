import Rendezvous.HostInterface.Bridge

/-!
# Deployments

A deployment is one site with all that drives it from outside: contexts by name, the
interface for C hosts, and a host that asks things of the fabric directly. An operation acts
with a timing, by which deliveries are made in its course; to perform an operation is to make
every delivery as soon as it can be made, and those that are left at the end. Nothing but
deliveries comes between two steps of an operation: others are asked for before it or after it.
-/

namespace Rendezvous

open HostInterface

/-- A site with all that drives it from outside. -/
structure Deployment where
  site : Site
  store : Store
  contexts : OrderedMap String Context
  /-- The servers whose graphs are held, by the name of the context that ran them. -/
  held : OrderedMap String Handle
  bridge : Bridge

inductive Operation where
  | command (command : Command)
  /-- Create a context, in place of one of the same name. -/
  | newContext (name : String) (config : Config)
  | dropContext (name : String)
  | start (name : String) (domain : UInt32) (registry : Registry)
  | stop (name : String) (domain : UInt32)
  | isRunning (name : String) (domain : UInt32)
  | report (name : String)
  | holdGraph (name : String)
  | heldGraph (name : String)
  /-- Install a context for C hosts, with the store that contexts share or one of its own. -/
  | install (config : Config) (ownFiles : Bool)
  | bind (category : Category) (function : Option Nat) (context : Option String)
  | startInstalled (domain : UInt32)
  | stopInstalled (domain : UInt32)
  | installedIsRunning (domain : UInt32)
  | shutdown
  /-- Set up logging, which a host has done already. -/
  | initLogging

structure Report where
  running : Running
  stats : Stats
  graph : Option Snapshot

inductive Answer where
  | reply (reply : Reply)
  | created (serverPrefix : GuidPrefix)
  | started (handle : Handle)
  | stopped (outcome : StopOutcome)
  | truth (value : Bool)
  | report (report : Option Report)
  /-- The latest snapshot of the graph kept, and whether the context runs its server still. -/
  | graph (latest : Option Snapshot) (isCurrent : Bool)
  | status (status : Status)
  | done
  | failed (e : BridgeError)
  | unknownContext

namespace Deployment

def new (site : Site) (store : Store) : Deployment := ⟨site, store, .empty, .empty, .initial⟩

def setContext (d : Deployment) (name : String) (c : Context) : Deployment :=
  { d with contexts := d.contexts.insert name c }

def dropContext (d : Deployment) (t : Timing) (name : String) : Deployment :=
  match d.contexts.find? name with
  | none => d
  | some c => { d with contexts := d.contexts.erase name, site := c.drop t d.site }

def reportOf (d : Deployment) (c : Context) : Option Report := do
  let running ← c.server
  let l ← d.site.discoveryListener? running.handle
  return ⟨running, l.stats, l.graph.map (·.latest)⟩

def latestOf (d : Deployment) (server : Handle) : Option Snapshot := do
  let l ← d.site.discoveryListener? server
  let g ← l.graph
  return g.latest

def withContext (d : Deployment) (name : String)
    (f : Context → Deployment × Answer) : Deployment × Answer :=
  match d.contexts.find? name with
  | none => (d, .unknownContext)
  | some c => f c

def answered (d : Deployment) : Bridge × Site × Status → Deployment × Answer
  | (bridge, site, status) => ({ d with bridge, site }, .status status)

/-- Do what an operation asks, with the deliveries that are made in its course. -/
def act (d : Deployment) (t : Timing) : Operation → Deployment × Answer
  | .command c =>
      let (site, reply) := d.site.perform c
      ({ d with site }, .reply reply)
  | .newContext name config =>
      match Context.new config d.store with
      | .error e => (d, .failed e)
      | .ok c => ((d.dropContext t name).setContext name c, .created config.serverPrefix)
  | .dropContext name => (d.dropContext t name, .done)
  | .start name domain registry =>
      d.withContext name fun c =>
        match c.start t d.site domain registry with
        | (c, site, .ok h) => ({ d with site }.setContext name c, .started h)
        | (c, site, .error e) => ({ d with site }.setContext name c, .failed e)
  | .stop name domain =>
      d.withContext name fun c =>
        match c.stop t d.site domain with
        | (c, site, .ok outcome) => ({ d with site }.setContext name c, .stopped outcome)
        | (c, site, .error e) => ({ d with site }.setContext name c, .failed e)
  | .isRunning name domain =>
      d.withContext name fun c => (d, .truth (c.isRunning d.site domain))
  | .report name => d.withContext name fun c => (d, .report (d.reportOf c))
  | .holdGraph name =>
      d.withContext name fun c =>
        match c.server with
        | none => (d, .truth false)
        | some running => ({ d with held := d.held.insert name running.handle }, .truth true)
  | .heldGraph name =>
      match d.held.find? name with
      | none => (d, .graph none false)
      | some server =>
          let current := ((d.contexts.find? name).bind (·.server)).map (·.handle)
          (d, .graph (d.latestOf server) (current == some server))
  | .install config ownFiles =>
      let store := if ownFiles then .folder config.stateDir else d.store
      match d.bridge.install t d.site config store with
      | (bridge, site, .ok ()) => ({ d with bridge, site }, .done)
      | (bridge, site, .error e) => ({ d with bridge, site }, .failed e)
  | .bind category function context =>
      let (bridge, status) := d.bridge.bind category function context
      ({ d with bridge }, .status status)
  | .startInstalled domain => d.answered (d.bridge.start t d.site domain)
  | .stopInstalled domain => d.answered (d.bridge.stop t d.site domain)
  | .installedIsRunning domain => (d, .truth (d.bridge.isRunning d.site domain))
  | .shutdown => d.answered (d.bridge.shutdown t d.site)
  | .initLogging => (d, .status .stateError)

/-- Do what an operation asks, and make every delivery as soon as it can be made. -/
def perform (d : Deployment) (op : Operation) : Deployment × Answer :=
  let (d, answer) := d.act .prompt op
  ({ d with site := d.site.drain }, answer)

/-- Do what a list of operations asks, one after the other. -/
def performAll (d : Deployment) (ops : List Operation) : Deployment :=
  ops.foldl (fun d op => (d.perform op).1) d

end Deployment

end Rendezvous
