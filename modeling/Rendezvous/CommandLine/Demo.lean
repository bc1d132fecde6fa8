import Rendezvous.CommandLine.Console
import Rendezvous.Context
import Rendezvous.Ports

/-!
# The demonstration

A server is run on a domain among simulated participants: a talker over datagrams and a
listener over shared memory. Every record that the host is given is logged as JSON, and
the graph is logged before and after the talker leaves. Lines about single participants,
versions of the graph and deliveries are of less importance. Its pauses take no time here, and
its waiting for deliveries never times out.
-/

namespace Rendezvous.CommandLine

open Text

def natText (n : Nat) : String := String.ofList (decimal n)

def noticeLine : Notice → Level × String
  | .participantJoined handle guidPrefix domain =>
      (.debug, "Participant " ++ handle.display ++ " (" ++ guidPrefix.text ++ ") joined domain " ++
        domainText domain)
  | .participantClosed handle => (.debug, "Participant " ++ handle.display ++ " closed")
  | .participantDeleted handle => (.debug, "Participant " ++ handle.display ++ " deleted")
  | .graphPublished version participants topics =>
      (.debug, "Graph v" ++ natText version ++ ": " ++ natText participants ++
        " participant(s), " ++ natText topics ++ " topic(s)")
  | .serverStarting domain registry =>
      (.debug, "Callbacks for domain " ++ domainText domain ++ ": " ++ registry.describe)
  | .serverStarted guidPrefix domain handle =>
      (.info, "Discovery server " ++ guidPrefix.text ++ " started on domain " ++
        domainText domain ++ " (" ++ handle.display ++ ")")
  | .recordNotSaved domain e =>
      (.warn, "Failed to record server for domain " ++ domainText domain ++ ": " ++ e.message)
  | .serverStopped domain =>
      (.info, "Discovery server on domain " ++ domainText domain ++ " stopped")
  | .serverReplaced handle domain =>
      (.debug, "Replacing server " ++ handle.display ++ " on domain " ++ domainText domain)
  | .serverDropped handle _ => (.debug, "Server " ++ handle.display ++ " deleted on drop")
  | .recordNotCleared domain e =>
      (.warn, "Failed to clear server record for domain " ++ domainText domain ++ ": " ++
        e.message)

/-- The line for a delivery; word of readers and writers has none. -/
def deliveryLine? (n : Notification) : Option String :=
  match n.subject with
  | .participant _ profile =>
      some ("deliver participant " ++ n.status.name ++ " " ++ profile.guidPrefix.text)
  | .entity _ _ => none

def logSighting (c : Console) : Sighting → Console
  | .delivered d _ =>
      match deliveryLine? d.notification with
      | none => c
      | some line => c.log .trace line
  | .called _ call =>
      c.info (call.event.category.name ++ " " ++ call.event.record.toJson.compact)
  | .noticed notice =>
      let (level, line) := noticeLine notice
      c.log level line
  | _ => c

/-- Log what was seen to happen since the journal was last looked at, and empty the journal. -/
def report (c : Console) (s : Site) : Console × Site :=
  (s.journal.foldl logSighting c, s.forget)

/-- The records that the host has been given, according to a journal. -/
def recordsSeen (s : Site) : Nat :=
  (s.journal.filter fun
    | .called _ _ => true
    | _ => false).length

def banner (c : Console) (config : Config) (domain : UInt32) : Console :=
  let rule := "+----------------------------------------------------+"
  let listen := config.listenAddress.text ++ ":" ++ natText config.listenPort.toNat
  (((((((c.info rule).info "|       HDDS Discovery Bridge v1.0.10              |").info rule).info
    ("|  Listen: " ++ padRight 40 listen ++ " |")).info
    ("|  Domain: " ++ padLeft 40 (domainText domain) ++ " |")).info
    ("|  Prefix: " ++ padRight 40 config.serverPrefix.text ++ " |")).info rule)

def loggingRegistry : Registry :=
  Category.all.foldl (fun r c => r.put c (some ⟨.native "demo" .yields, "demo"⟩)) .empty

def simulatedPrefix (number : UInt8) : GuidPrefix :=
  ⟨#v[0x01, 0x0f, 0x6e, 0x21, 0, 0, 0, 0, number, 0, 0, 0]⟩

def talkerAddress : Address := .v4 #v[192, 168, 1, 10]

def demoTopic : String := "rt/chatter"

def demoType : String := "std_msgs::msg::dds_::String_"

/-- The port of the talker, if a port can be that high. -/
def talkerPort? (domain : UInt32) : Option UInt16 :=
  let port := (DomainPorts.ofDomain domain 1).userUnicast
  if port < UInt16.size then some (.ofNat port) else none

/-- Announce a reader or a writer of the topic. -/
def announce (s : Site) (owner : Handle) (kind : EntityKind) (locators : List Locator) :
    Site × Except FabricError Unit :=
  match s.perform (.addEntity owner kind demoTopic demoType ⟨locators, []⟩ 1) with
  | (s, .failed e) => (s, .error e)
  | (s, _) => (s, .ok ())

/-- Join the talker and the listener, with a writer and a reader; answers the talker. -/
def populate (s : Site) (domain : UInt32) (port : UInt16) : Site × Except FabricError Handle :=
  let locator := Locator.udp talkerAddress port
  let (s, talker) := s.join domain ⟨simulatedPrefix 1, some "talker", [locator]⟩
  let (s, listener) := s.join domain ⟨simulatedPrefix 2, some "listener", [.shm 0]⟩
  match announce s talker .writer [locator] with
  | (s, .error e) => (s, .error e)
  | (s, .ok ()) =>
      match announce s listener .reader [.shm 0] with
      | (s, .error e) => (s, .error e)
      | (s, .ok ()) => (s, .ok talker)

def logGraph (c : Console) (s : Site) (server : Handle) : Console :=
  match (s.discoveryListener? server).bind (·.graph) with
  | none => c
  | some g =>
      c.info ("Discovery graph v" ++ natText g.latest.version ++ ":\n" ++ g.latest.toJson.pretty)

def logStats (c : Console) (stats : Stats) : Console :=
  c.info ("Dispatched " ++ natText stats.dispatched ++ " event(s), " ++ natText stats.unbound ++
    " unbound, " ++ natText stats.failed ++ " failed, " ++ natText stats.unknownTransport ++
    " with unknown transport")

inductive DemoError where
  | portTooHigh
  | fabric (e : FabricError)
  | bridge (e : BridgeError)

/-- The wording with the kind of error in front, for the end of a program. -/
def DemoError.report : DemoError → String
  | .portTooHigh => "TryFromIntError(PosOverflow)"
  | .fabric e => e.report
  | .bridge e => e.report

/-- What follows once the server runs: the participants come, one leaves, the server stops. All
that is due is delivered before the graph is logged. -/
def demoRun (c : Console) (ctx : Context) (s : Site) (domain : UInt32) (server : Handle)
    (port : UInt16) : Console × Context × Site × Except DemoError Unit :=
  match populate s domain port with
  | (s, .error e) => (c, ctx, s, .error (.fabric e))
  | (s, .ok talker) =>
      let s := s.drain
      let seen := recordsSeen s
      let (c, s) := report c s
      let c := (logGraph c s server).info ("Talker leaving domain " ++ domainText domain)
      match s.delete talker with
      | (s, .error e) => (c, ctx, s, .error (.fabric e))
      | (s, .ok ()) =>
          let s := s.drain
          let seen := seen + recordsSeen s
          let (c, s) := report c s
          let c := logGraph c s server
          let c := match s.discoveryListener? server with
            | none => c
            | some l => logStats c l.stats
          let c := c.info ("Host context saw " ++ natText seen ++ " record(s)")
          let (ctx, s, stopped) := ctx.stop .prompt s domain
          let (c, s) := report c s
          match stopped with
          | .error e => (c, ctx, s, .error (.bridge e))
          | .ok _ => (c.info "Discovery bridge stopped", ctx, s, .ok ())

/-- Run the demonstration up to the end of its context; however it ends, the context is given
up. -/
def demoInContext (c : Console) (config : Config) (s : Site) (domain : UInt32) :
    Console × Site × Except DemoError Unit :=
  match Context.new config (.folder config.stateDir) with
  | .error e => (c, s, .error (.bridge e))
  | .ok ctx =>
      let c := banner c config domain
      match ctx.start .prompt s domain loggingRegistry with
      | (_, s, .error e) =>
          let (c, s) := report c s
          (c, s, .error (.bridge e))
      | (ctx, s, .ok server) =>
          let (c, s) := report c s
          match talkerPort? domain with
          | none =>
              let (c, s) := report c (ctx.drop .prompt s)
              (c, s, .error .portTooHigh)
          | some port =>
              let (c, ctx, s, result) := demoRun c ctx s domain server port
              let (c, s) := report c (ctx.drop .prompt s)
              (c, s, result)

/-- Run the demonstration; its fabric is the last to go. -/
def demo (c : Console) (config : Config) (s : Site) (domain : UInt32) :
    Console × Site × Except DemoError Unit :=
  let (c, s, result) := demoInContext c config s domain
  (c.log .trace "Loopback delivery thread exiting", s, result)

end Rendezvous.CommandLine
