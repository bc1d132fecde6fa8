import Std.Time.DateTime.Timestamp
import Rendezvous.CommandLine.Run

/-!
# The program

The program looks at the files that its arguments name, does what they ask for, and
carries out on disk what that changes.
-/

namespace Rendezvous.CommandLine

open Files

/-- The name that the system knows a place by. -/
def placeName (p : Place) : String :=
  let names := "/".intercalate (p.names.map fun n => (String.fromUTF8? ⟨n.toArray⟩).getD "")
  if p.fromRoot then "/" ++ names else if p.isStart then "." else names

def look (p : Place) : IO (Option Entry) := do
  match ← (IO.FS.readBinFile (placeName p)).toBaseIO with
  | .ok content => return some (.file content)
  | .error (.inappropriateType ..) => return some .folder
  | .error _ => return none

/-- A tree with all that a path leads through on disk. -/
def scan (t : Tree) (path : Path) : IO Tree := do
  let mut t := t
  let mut place : Place := .working
  for step in path.steps do
    match place.step? step with
    | some next => place := next
    | none =>
        place := place.child step
        match ← look place with
        | some e => t := t.set place e
        | none => break
  return t

/-- The paths of the records that a task is about. -/
def recordPaths (folder : Path) : Task → List Path
  | .status domain => [Store.recordPath folder domain]
  | .clear domain => [Store.recordPath folder domain]
  | .demo domain _ => [Store.draftPath folder domain, Store.recordPath folder domain]

def Task.domain : Task → UInt32
  | .status domain => domain
  | .clear domain => domain
  | .demo domain _ => domain

/-- Carry out on disk what has changed in a tree. -/
def carryOut (before after : Tree) : IO Unit := do
  for (place, e) in after.entries.entries do
    if before.at? place ≠ some e then
      match e with
      | .folder => IO.FS.createDirAll (placeName place)
      | .file content => IO.FS.writeBinFile (placeName place) content
  for place in before.entries.keys do
    if (after.at? place).isNone then IO.FS.removeFile (placeName place)

def ownPid : IO UInt32 := do
  let stat ← IO.FS.readFile "/proc/self/stat"
  return .ofNat (Text.ofDecimal (stat.toList.takeWhile Text.isDecimalDigit))

def processExists (pid : UInt32) : IO Bool := do
  match ← (IO.FS.readFile ("/proc/" ++ natText pid.toNat ++ "/stat")).toBaseIO with
  | .ok _ => return true
  | .error _ => return false

def environment (i : Invocation) : IO Environment := do
  let temporary := (← IO.getEnv "TMPDIR").getD "/tmp"
  let stateDir := (Path.ofString temporary).join (.ofString "hdds-discovery-bridge")
  let now := (← Std.Time.Timestamp.now).toMillisecondsSinceUnixEpoch.val.toNat
  let processes : ProcessTable := ⟨← ownPid, [], .ofNat now⟩
  let files ← match i.config with
    | none => pure Tree.empty
    | some path => scan .empty (.ofString path)
  let env : Environment := ⟨files, processes, stateDir⟩
  match (configure env i (.new .error)).2 with
  | .error _ => return env
  | .ok config =>
      let files ← (recordPaths config.stateDir i.task).foldlM scan files
      let env := { env with files }
      match (Store.folder config.stateDir).load ⟨.empty, files⟩ i.task.domain with
      | .ok (some record) =>
          if ← processExists record.pid then
            return { env with processes := { processes with others := [record.pid] } }
          else return env
      | _ => return env

/-- Print how a program ends, and end it. -/
def finish (outcome : Outcome) : IO UInt32 := do
  for line in outcome.output do
    IO.println line
  IO.eprint outcome.errors
  return .ofNat outcome.exitCode

def program (arguments : List String) : IO UInt32 := do
  match Request.of arguments with
  | .run i => do
      let env ← environment i
      let outcome := i.run env
      match i.task with
      | .demo _ pause => IO.sleep (.ofNat (2 * pause.toNat))
      | _ => pure ()
      carryOut env.files outcome.files
      finish outcome
  | _ => finish (run ⟨.empty, ⟨0, [], 0⟩, .ofString ""⟩ arguments)

end Rendezvous.CommandLine

def main (arguments : List String) : IO UInt32 :=
  Rendezvous.CommandLine.program arguments
