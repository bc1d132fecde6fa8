import Rendezvous.Error
import Rendezvous.Record

/-!
# Callback registries

A host binds a callback and a context to each category of events that it wants to hear
of. A category is bound in full or not at all; binding a callback without a context
breaks the contract and changes nothing.
-/

namespace Rendezvous

/-- What a callback does after it has taken note of a record. Whatever else it may ask for is left
to be asked next after the delivery, by which nothing changes. -/
inductive Response where
  | yields
  | panics
  /-- It deletes the participant described, and returns. -/
  | deletes
  deriving DecidableEq, Repr

inductive Callback where
  /-- A callback that is given records as they are, known by a label. -/
  | native (label : String) (response : Response)
  /-- A callback that is given C data, known by a number. -/
  | foreign (function : Nat)
  deriving DecidableEq, Repr

/-- A callback together with the context that it is handed back. -/
structure Binding where
  callback : Callback
  context : String
  deriving DecidableEq, Repr

/-- The wording for a callback that comes without a context. -/
def Category.unboundContext (c : Category) : String :=
  c.name ++ " callback bound without a context"

/-- A binding from its parts: without a callback there is none, and a callback needs a context. -/
def Binding.ofParts (c : Category) (callback : Option Callback) (context : Option String) :
    Except BridgeError (Option Binding) :=
  match callback, context with
  | none, _ => .ok none
  | some callback, some context => .ok (some ⟨callback, context⟩)
  | some _, none => .error (.contractViolation c.unboundContext)

structure Registry where
  participantDiscovered : Option Binding
  participantRemoved : Option Binding
  readerDiscovered : Option Binding
  readerRemoved : Option Binding
  writerDiscovered : Option Binding
  writerRemoved : Option Binding
  deriving DecidableEq, Repr

namespace Registry

def empty : Registry := ⟨none, none, none, none, none, none⟩

def binding (r : Registry) : Category → Option Binding
  | .participantDiscovered => r.participantDiscovered
  | .participantRemoved => r.participantRemoved
  | .readerDiscovered => r.readerDiscovered
  | .readerRemoved => r.readerRemoved
  | .writerDiscovered => r.writerDiscovered
  | .writerRemoved => r.writerRemoved

def isBound (r : Registry) (c : Category) : Bool := (r.binding c).isSome

/-- Put a binding, or none, in the place of the one that a category has. -/
def put (r : Registry) (c : Category) (b : Option Binding) : Registry :=
  match c with
  | .participantDiscovered => { r with participantDiscovered := b }
  | .participantRemoved => { r with participantRemoved := b }
  | .readerDiscovered => { r with readerDiscovered := b }
  | .readerRemoved => { r with readerRemoved := b }
  | .writerDiscovered => { r with writerDiscovered := b }
  | .writerRemoved => { r with writerRemoved := b }

@[simp] theorem binding_empty (c : Category) : empty.binding c = none := by cases c <;> rfl

@[simp] theorem binding_put (r : Registry) (c c' : Category) (b : Option Binding) :
    (r.put c b).binding c' = if c' = c then b else r.binding c' := by
  cases c <;> cases c' <;> rfl

/-- Bind a category, or clear it. -/
def set (r : Registry) (c : Category) (callback : Option Callback) (context : Option String) :
    Except BridgeError Registry :=
  (Binding.ofParts c callback context).map (r.put c)

def bound (r : Registry) : List Category := Category.all.filter r.isBound

def describeField (name : String) (b : Option Binding) : String :=
  name ++ ": " ++ (if b.isSome then "true" else "false")

def describe (r : Registry) : String :=
  "CallbackRegistry \x7b " ++ ", ".intercalate [
    describeField "participant_discovered" r.participantDiscovered,
    describeField "participant_removed" r.participantRemoved,
    describeField "reader_discovered" r.readerDiscovered,
    describeField "reader_removed" r.readerRemoved,
    describeField "writer_discovered" r.writerDiscovered,
    describeField "writer_removed" r.writerRemoved] ++ " \x7d"

end Registry

end Rendezvous
