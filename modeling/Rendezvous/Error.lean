import Rendezvous.Handle
import Rendezvous.Text.Quoted

/-!
# What can go wrong

The errors of the parts of the library, their wordings, and the status codes by which C
hosts learn of them. Where one error is caused by another, the inner one is its source.
-/

namespace Rendezvous

open Text

inductive StoreError where
  | io (text : String)
  | parse (text : String)
  | serialize (text : String)
  deriving DecidableEq, Repr

inductive ConfigError where
  | io (text : String)
  | parse (text : String)
  | serialize (text : String)
  | invalidValue (text : String)
  deriving DecidableEq, Repr

inductive FabricError where
  | unknownParticipant (handle : Handle)
  | refused (reason : String)
  deriving DecidableEq, Repr

/-- What binding callbacks and running servers can fail with. -/
inductive BridgeError where
  | creationFailure (domain : UInt32)
  | deletionFailure (domain : UInt32) (source : FabricError)
  | contractViolation (text : String)
  | store (source : StoreError)
  | config (source : ConfigError)
  deriving DecidableEq, Repr

def StoreError.message : StoreError → String
  | .io text => "I/O error: " ++ text
  | .parse text => "Parse error: " ++ text
  | .serialize text => "Serialize error: " ++ text

def ConfigError.message : ConfigError → String
  | .io text => "I/O error: " ++ text
  | .parse text => "Parse error: " ++ text
  | .serialize text => "Serialize error: " ++ text
  | .invalidValue text => "Invalid value: " ++ text

def FabricError.message : FabricError → String
  | .unknownParticipant handle => "Unknown participant " ++ handle.display
  | .refused reason => "Refused: " ++ reason

/-- The wording with the kind of error in front, for the end of a program. -/
def StoreError.report : StoreError → String
  | .io text => "Io(" ++ quote text ++ ")"
  | .parse text => "Parse(" ++ quote text ++ ")"
  | .serialize text => "Serialize(" ++ quote text ++ ")"

/-- The wording with the kind of error in front, for the end of a program. -/
def ConfigError.report : ConfigError → String
  | .io text => "IoError(" ++ quote text ++ ")"
  | .parse text => "ParseError(" ++ quote text ++ ")"
  | .serialize text => "SerializeError(" ++ quote text ++ ")"
  | .invalidValue text => "InvalidValue(" ++ quote text ++ ")"

/-- The wording with the kind of error in front, for the end of a program. -/
def FabricError.report : FabricError → String
  | .unknownParticipant handle =>
      "UnknownParticipant(ParticipantHandle(" ++ String.ofList (decimal handle.number) ++ "))"
  | .refused reason => "Refused(" ++ quote reason ++ ")"

def domainText (domain : UInt32) : String := String.ofList (decimal domain.toNat)

namespace BridgeError

def message : BridgeError → String
  | .creationFailure domain => "Unable to create participant on domain " ++ domainText domain
  | .deletionFailure domain source =>
      "Unable to delete participant on domain " ++ domainText domain ++ ": " ++ source.message
  | .contractViolation text => "Contract violation: " ++ text
  | .store source => "State store error: " ++ source.message
  | .config source => "Configuration error: " ++ source.message

/-- The wording with the kind of error in front, for the end of a program. -/
def report : BridgeError → String
  | .creationFailure domain => "CreationFailure \x7b domain_id: " ++ domainText domain ++ " \x7d"
  | .deletionFailure domain source =>
      "DeletionFailure \x7b domain_id: " ++ domainText domain ++ ", source: " ++ source.report ++
        " \x7d"
  | .contractViolation text => "ContractViolation(" ++ quote text ++ ")"
  | .store source => "State(" ++ source.report ++ ")"
  | .config source => "Config(" ++ source.report ++ ")"

def source? : BridgeError → Option String
  | .deletionFailure _ source => some source.message
  | .store source => some source.message
  | .config source => some source.message
  | .creationFailure _ => none
  | .contractViolation _ => none

def code : BridgeError → Int
  | .creationFailure _ => -1
  | .deletionFailure _ _ => -2
  | .contractViolation _ => -3
  | .store _ => -5
  | .config _ => -6

end BridgeError

inductive Status where
  | ok
  | creationFailure
  | deletionFailure
  | contractViolation
  | notInitialized
  /-- A store failed, or logging is set up already. -/
  | stateError
  | invalidArgument
  deriving DecidableEq, Repr

namespace Status

def code : Status → Int
  | .ok => 0
  | .creationFailure => -1
  | .deletionFailure => -2
  | .contractViolation => -3
  | .notInitialized => -4
  | .stateError => -5
  | .invalidArgument => -6

def ofError : BridgeError → Status
  | .creationFailure _ => .creationFailure
  | .deletionFailure _ _ => .deletionFailure
  | .contractViolation _ => .contractViolation
  | .store _ => .stateError
  | .config _ => .invalidArgument

def ofResult {α : Type} : Except BridgeError α → Status
  | .ok _ => .ok
  | .error e => ofError e

theorem code_ofError (e : BridgeError) : (ofError e).code = e.code := by
  cases e <;> rfl

end Status

end Rendezvous
