import Rendezvous.CommandLine.Arguments
import Rendezvous.CommandLine.Demo

/-!
# Running a command line

What a command line does to files, what it prints, and the exit code it ends with: zero
for success, one for failure or for a server that does not run, and two for arguments
that make no sense.
-/

namespace Rendezvous.CommandLine

open Files

/-- What a program finds when it starts. -/
structure Environment where
  files : Tree
  processes : ProcessTable
  /-- The folder of the server records, unless told otherwise. -/
  stateDir : Path

structure Outcome where
  exitCode : Nat
  /-- The lines printed. -/
  output : List String
  /-- What is printed as an error. -/
  errors : String
  files : Tree

namespace Outcome

def failure (c : Console) (files : Tree) (report : String) : Outcome :=
  ⟨1, c.lines.toList, "Error: " ++ report ++ "\n", files⟩

def ending (c : Console) (files : Tree) (success : Bool) : Outcome :=
  ⟨if success then 0 else 1, c.lines.toList, "", files⟩

end Outcome

/-- The configuration that holds: of the file named, or the default, with the folder named. -/
def configure (env : Environment) (i : Invocation) (c : Console) :
    Console × Except ConfigError Config :=
  let (c, loaded) : Console × Except ConfigError Config :=
    match i.config with
    | none => (c, .ok (.default env.stateDir))
    | some path =>
        (c.info ("Loading config from " ++ Text.quote path),
          Config.load (.standIn env.stateDir) env.files (.ofString path))
  (c, do
    let config ← loaded
    let config :=
      match i.stateDir with
      | none => config
      | some path => { config with stateDir := .ofString path }
    config.validate
    return config)

def status (env : Environment) (c : Console) (store : Store) (domain : UInt32) : Outcome :=
  let label := "domain " ++ domainText domain ++ ": "
  match store.load ⟨.empty, env.files⟩ domain with
  | .error e => .failure c env.files e.report
  | .ok none => .ending (c.print (label ++ "no server recorded")) env.files false
  | .ok (some record) =>
      let c := c.print record.toJson.pretty
      let pid := natText record.pid.toNat
      if env.processes.isAlive record.pid then
        .ending (c.print (label ++ "running (pid " ++ pid ++ ")")) env.files true
      else .ending (c.print (label ++ "stale record, pid " ++ pid ++ " is gone")) env.files false

def clear (env : Environment) (c : Console) (store : Store) (domain : UInt32) : Outcome :=
  match store.clear ⟨.empty, env.files⟩ domain with
  | (storage, .error e) => .failure c storage.files e.report
  | (storage, .ok ()) =>
      .ending (c.info ("Cleared server record for domain " ++ domainText domain)) storage.files
        true

def demonstrate (env : Environment) (c : Console) (config : Config) (domain : UInt32) : Outcome :=
  match demo c config (.new ⟨.empty, env.files⟩ env.processes) domain with
  | (c, s, .ok ()) => .ending c s.storage.files true
  | (c, s, .error e) => .failure c s.storage.files e.report

def Invocation.run (env : Environment) (i : Invocation) : Outcome :=
  match configure env i (.new (.ofWord i.logLevel)) with
  | (c, .error e) => .failure c env.files e.report
  | (c, .ok config) =>
      let store := Store.folder config.stateDir
      match i.task with
      | .status domain => status env c store domain
      | .clear domain => clear env c store domain
      | .demo domain _ => demonstrate env c config domain

def versionLine : String := "hdds-discovery-bridge 1.0.10"

def run (env : Environment) (arguments : List String) : Outcome :=
  match Request.of arguments with
  | .run i => i.run env
  | .help => ⟨0, [], "", env.files⟩
  | .version => ⟨0, [versionLine], "", env.files⟩
  | .misuse => ⟨2, [], "", env.files⟩

end Rendezvous.CommandLine
