import Rendezvous.Address.Reader
import Rendezvous.Error
import Rendezvous.Files.Tree
import Rendezvous.Locator
import Rendezvous.ServerRecord

/-!
# Configurations

What a context needs to know to run a server and to stop the server of another process:
prefixes, addresses, ports, and where server records are kept. A configuration is read
from a JSON file, in which every field may be left out.
-/

namespace Rendezvous

open Files

structure Config where
  serverPrefix : GuidPrefix
  listenAddress : Address
  listenPort : UInt16
  peerAddress : Address
  peerPort : UInt16
  /-- The prefix of the participant that stops the server of another process. -/
  recoveryPrefix : GuidPrefix
  recoveryListenPort : UInt16
  recoveryPeerPort : UInt16
  /-- How long to wait for the server of another process to be discovered, in milliseconds. -/
  recoveryWait : UInt64
  stateDir : Path
  includeInternals : Bool
  deriving DecidableEq

namespace Config

def defaultServerPrefix : GuidPrefix :=
  ⟨#v[0x44, 0x53, 0x00, 0x5f, 0x45, 0x50, 0x52, 0x4f, 0x53, 0x49, 0x4d, 0x41]⟩

def defaultRecoveryPrefix : GuidPrefix :=
  ⟨#v[0x45, 0x53, 0x00, 0x5f, 0x45, 0x50, 0x51, 0x4f, 0x53, 0x49, 0x4d, 0x42]⟩

def defaultListenPort : UInt16 := 11811

def defaultPeerPort : UInt16 := 11812

def defaultRecoveryListenPort : UInt16 := 11814

def defaultRecoveryPeerPort : UInt16 := 11815

/-- The configuration where nothing is given, with records in a folder that the host names. -/
def default (stateDir : Path) : Config where
  serverPrefix := defaultServerPrefix
  listenAddress := .unspecified
  listenPort := defaultListenPort
  peerAddress := .unspecified
  peerPort := defaultPeerPort
  recoveryPrefix := defaultRecoveryPrefix
  recoveryListenPort := defaultRecoveryListenPort
  recoveryPeerPort := defaultRecoveryPeerPort
  recoveryWait := 20000
  stateDir := stateDir
  includeInternals := false

/-! ## Files -/

structure Draft where
  serverPrefix : Option GuidPrefix
  listenAddress : Option Address
  listenPort : Option UInt16
  peerAddress : Option Address
  peerPort : Option UInt16
  recoveryPrefix : Option GuidPrefix
  recoveryListenPort : Option UInt16
  recoveryPeerPort : Option UInt16
  recoveryWait : Option UInt64
  stateDir : Option Path
  includeInternals : Option Bool

/-- What each field is when a file leaves it out; the folder of the records is the host's. -/
def standIn (stateDir : Path) : Config where
  serverPrefix := defaultServerPrefix
  listenAddress := .unspecified
  listenPort := defaultListenPort
  peerAddress := .unspecified
  peerPort := defaultPeerPort
  recoveryPrefix := defaultRecoveryPrefix
  recoveryListenPort := defaultRecoveryListenPort
  recoveryPeerPort := defaultRecoveryPeerPort
  recoveryWait := 20000
  stateDir := stateDir
  includeInternals := false

namespace Draft

def blank : Draft := ⟨none, none, none, none, none, none, none, none, none, none, none⟩

/-- The configuration of a draft: `base` stands in for the fields that it lacks. -/
def complete (base : Config) (d : Draft) : Config where
  serverPrefix := d.serverPrefix.getD base.serverPrefix
  listenAddress := d.listenAddress.getD base.listenAddress
  listenPort := d.listenPort.getD base.listenPort
  peerAddress := d.peerAddress.getD base.peerAddress
  peerPort := d.peerPort.getD base.peerPort
  recoveryPrefix := d.recoveryPrefix.getD base.recoveryPrefix
  recoveryListenPort := d.recoveryListenPort.getD base.recoveryListenPort
  recoveryPeerPort := d.recoveryPeerPort.getD base.recoveryPeerPort
  recoveryWait := d.recoveryWait.getD base.recoveryWait
  stateDir := d.stateDir.getD base.stateDir
  includeInternals := d.includeInternals.getD base.includeInternals

end Draft

def readAddress : Json.Reader Address :=
  Json.readParsed "IP address" fun text =>
    match Address.ofString? text with
    | some a => .ok a
    | none => .error "invalid IP address syntax"

def readPath : Json.Reader Path := Json.readParsed "path string" (.ok ∘ Path.ofString)

def schema (base : Config) : Json.Schema Draft Config where
  label := "struct BridgeConfig"
  fields := [
    .of "server_guid_prefix" (·.serverPrefix) (fun v d => { d with serverPrefix := some v })
      ServerRecord.readPrefix,
    .of "listen_address" (·.listenAddress) (fun v d => { d with listenAddress := some v })
      readAddress,
    .of "listen_port" (·.listenPort) (fun v d => { d with listenPort := some v })
      Json.readUInt16,
    .of "peer_address" (·.peerAddress) (fun v d => { d with peerAddress := some v })
      readAddress,
    .of "peer_port" (·.peerPort) (fun v d => { d with peerPort := some v }) Json.readUInt16,
    .of "recovery_guid_prefix" (·.recoveryPrefix)
      (fun v d => { d with recoveryPrefix := some v }) ServerRecord.readPrefix,
    .of "recovery_listen_port" (·.recoveryListenPort)
      (fun v d => { d with recoveryListenPort := some v }) Json.readUInt16,
    .of "recovery_peer_port" (·.recoveryPeerPort)
      (fun v d => { d with recoveryPeerPort := some v }) Json.readUInt16,
    .of "recovery_wait_ms" (·.recoveryWait) (fun v d => { d with recoveryWait := some v })
      Json.readUInt64,
    .of "state_dir" (·.stateDir) (fun v d => { d with stateDir := some v }) readPath,
    .of "include_internals" (·.includeInternals)
      (fun v d => { d with includeInternals := some v }) Json.readBoolean]
  blank := .blank
  finish d := .ok (d.complete base)

/-- The configuration in a text; `base` stands in for the fields that are left out. -/
def ofString (base : Config) (text : String) : Except ConfigError Config :=
  match (schema base).ofString text with
  | .ok config => .ok config
  | .error e => .error (.parse e.message)

/-- The configuration in a file; `base` stands in for the fields that are left out. -/
def load (base : Config) (files : Tree) (path : Path) : Except ConfigError Config :=
  match files.readText path with
  | .ok text => ofString base text
  | .error e => .error (.io e.message)

/-- The JSON form; the folder of the records needs to have a text. -/
def toJson? (c : Config) : Option Json :=
  c.stateDir.text?.map fun stateDir =>
    .object [
      ("server_guid_prefix", .string c.serverPrefix.text),
      ("listen_address", .string c.listenAddress.text),
      ("listen_port", .natural c.listenPort.toNat),
      ("peer_address", .string c.peerAddress.text),
      ("peer_port", .natural c.peerPort.toNat),
      ("recovery_guid_prefix", .string c.recoveryPrefix.text),
      ("recovery_listen_port", .natural c.recoveryListenPort.toNat),
      ("recovery_peer_port", .natural c.recoveryPeerPort.toNat),
      ("recovery_wait_ms", .natural c.recoveryWait.toNat),
      ("state_dir", .string stateDir),
      ("include_internals", .boolean c.includeInternals)]

/-- Write a configuration to a file; nothing is written before the whole text is there. -/
def save (c : Config) (files : Tree) (path : Path) : Tree × Except ConfigError Unit :=
  match c.toJson? with
  | none => (files, .error (.serialize "path contains invalid UTF-8 characters"))
  | some json =>
      match files.write path json.pretty.toUTF8 with
      | .ok files => (files, .ok ())
      | .error e => (files, .error (.io e.message))

/-! ## Participants -/

/-- The part that a participant plays in discovery. -/
inductive Role where
  | simple
  | server
  /-- A server that keeps what it has discovered. -/
  | backup
  deriving DecidableEq, Repr

structure RemoteServer where
  guidPrefix : GuidPrefix
  locator : Locator
  deriving DecidableEq, Repr

structure Qos where
  role : Role
  guidPrefix : GuidPrefix
  locators : List Locator
  remoteServers : List RemoteServer
  deriving DecidableEq, Repr

/-- A backup server, paired with one server of its own prefix. -/
def Qos.backup (guidPrefix : GuidPrefix) (listen peer : Locator) : Qos :=
  ⟨.backup, guidPrefix, [listen], [⟨guidPrefix, peer⟩]⟩

def serverQos (c : Config) : Qos :=
  .backup c.serverPrefix (.udp c.listenAddress c.listenPort) (.udp c.peerAddress c.peerPort)

def recoveryQos (c : Config) : Qos :=
  .backup c.recoveryPrefix (.udp c.listenAddress c.recoveryListenPort)
    (.udp c.peerAddress c.recoveryPeerPort)

/-! ## Validation -/

/-- Why a configuration is of no use. -/
inductive Flaw where
  | zeroPort (field : String)
  | sameServerPorts
  | sameRecoveryPorts
  | sharedPort
  | samePrefixes
  | noWait
  deriving DecidableEq, Repr

def Flaw.message : Flaw → String
  | .zeroPort field => field ++ " cannot be 0"
  | .sameServerPorts => "listen_port and peer_port must differ"
  | .sameRecoveryPorts => "recovery_listen_port and recovery_peer_port must differ"
  | .sharedPort => "recovery ports must not reuse server ports"
  | .samePrefixes => "recovery_guid_prefix must differ from server_guid_prefix"
  | .noWait => "recovery_wait_ms cannot be 0"

def ports (c : Config) : List (String × UInt16) :=
  [("listen_port", c.listenPort), ("peer_port", c.peerPort),
    ("recovery_listen_port", c.recoveryListenPort), ("recovery_peer_port", c.recoveryPeerPort)]

def flaw? (c : Config) : Option Flaw :=
  match c.ports.find? (·.2 == 0) with
  | some (field, _) => some (.zeroPort field)
  | none =>
      let serverPorts := [c.listenPort, c.peerPort]
      if c.listenPort = c.peerPort then some .sameServerPorts
      else if c.recoveryListenPort = c.recoveryPeerPort then some .sameRecoveryPorts
      else if serverPorts.contains c.recoveryListenPort ∨ serverPorts.contains c.recoveryPeerPort
      then some .sharedPort
      else if c.serverPrefix = c.recoveryPrefix then some .samePrefixes
      else if c.recoveryWait = 0 then some .noWait
      else none

def validate (c : Config) : Except ConfigError Unit :=
  match c.flaw? with
  | some flaw => .error (.invalidValue flaw.message)
  | none => .ok ()

end Config

end Rendezvous
