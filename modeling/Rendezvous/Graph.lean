import Rendezvous.OrderedMap
import Rendezvous.Record

/-!
# Discovery graphs

A graph folds events into what is known at present: the participants, and how many
readers and writers each of them has on each topic. Every change publishes a snapshot
under the next version. Internal topics are counted like any other, and left out of the
snapshots of a graph that does not include them. Versions and counts are numbers without a
bound; a counter of 64 bits agrees with them for as long as no graph takes in that many events.
-/

namespace Rendezvous

open Std

/-- A topic name as hosts see it, together with a type. -/
structure TopicKey where
  name : String
  typeName : String
  deriving DecidableEq, Repr

namespace TopicKey

/-- Keys are ordered by name, then by type. -/
instance : Ord TopicKey :=
  ⟨compareLex (compareOn TopicKey.name) (compareOn TopicKey.typeName)⟩

instance : TransOrd TopicKey :=
  inferInstanceAs (TransCmp (compareLex (compareOn TopicKey.name) (compareOn TopicKey.typeName)))

instance : LawfulEqOrd TopicKey where
  compare_self := ReflCmp.compare_self
  eq_of_compare {a b} h := by
    obtain ⟨hname, htype⟩ := compareLex_eq_eq.1 h
    cases a
    cases b
    exact congr (congrArg TopicKey.mk (LawfulEqOrd.eq_of_compare hname))
      (LawfulEqOrd.eq_of_compare htype)

/-- The key under which a reader or writer is counted. -/
def ofRecord (r : EntityRecord) : TopicKey := ⟨r.hostTopic, r.typeName.text⟩

def isVisible (includeInternals : Bool) (k : TopicKey) : Bool :=
  includeInternals || !Topic.isInternal k.name

end TopicKey

abbrev Tally := OrderedMap TopicKey Nat

namespace Tally

def raise (t : Tally) (k : TopicKey) : Tally :=
  t.alter k fun count => some (count.getD 0 + 1)

/-- One less under a key; a key without any is not kept. -/
def lower (t : Tally) (k : TopicKey) : Tally :=
  t.alter k fun
    | none => none
    | some count => if count ≤ 1 then none else some (count - 1)

def visible (includeInternals : Bool) (t : Tally) : List (TopicKey × Nat) :=
  t.entries.filter fun e => e.1.isVisible includeInternals

end Tally

structure KnownParticipant where
  /-- Unknown until the participant itself is announced. -/
  endpoint : Option Endpoint
  readers : Tally
  writers : Tally

namespace KnownParticipant

def blank : KnownParticipant := ⟨none, .empty, .empty⟩

def tally (p : KnownParticipant) : EntityKind → Tally
  | .reader => p.readers
  | .writer => p.writers

def mapTally (p : KnownParticipant) (kind : EntityKind) (f : Tally → Tally) : KnownParticipant :=
  match kind with
  | .reader => { p with readers := f p.readers }
  | .writer => { p with writers := f p.writers }

end KnownParticipant

abbrev Roster := OrderedMap GuidPrefix KnownParticipant

namespace Roster

/-- What an event makes of a roster, or nothing if it changes nothing. -/
def after? (r : Roster) (e : Event) : Option Roster :=
  match e.change, e.record with
  | .discovered, .participant record =>
      if (r.find? record.guidPrefix).bind (·.endpoint) = some record.endpoint then none
      else
        some (r.alter record.guidPrefix fun known =>
          some { known.getD .blank with endpoint := some record.endpoint })
  | .removed, .participant record =>
      if r.contains record.guidPrefix then some (r.erase record.guidPrefix) else none
  | .discovered, .entity kind record =>
      some (r.alter record.guidPrefix fun known =>
        some ((known.getD .blank).mapTally kind (·.raise (.ofRecord record))))
  | .removed, .entity kind record =>
      match r.find? record.guidPrefix with
      | none => none
      | some known =>
          if (known.tally kind).contains (.ofRecord record) then
            some (r.insert record.guidPrefix (known.mapTally kind (·.lower (.ofRecord record))))
          else none

end Roster

/-! ## Snapshots -/

structure EntityCount where
  key : TopicKey
  count : Nat
  deriving DecidableEq, Repr

structure ParticipantView where
  guidPrefix : GuidPrefix
  endpoint : Option Endpoint
  readers : List EntityCount
  writers : List EntityCount
  deriving DecidableEq, Repr

/-- One topic in a snapshot: how many write to it and how many read from it. -/
structure TopicView where
  key : TopicKey
  publishers : Nat
  subscribers : Nat
  deriving DecidableEq, Repr

/-- A graph as it was at one version. -/
structure Snapshot where
  version : Nat
  participants : List ParticipantView
  topics : List TopicView
  deriving DecidableEq, Repr

namespace Snapshot

def initial : Snapshot := ⟨0, [], []⟩

def participant? (s : Snapshot) (p : GuidPrefix) : Option ParticipantView :=
  s.participants.find? (·.guidPrefix == p)

/-- The first topic with a name, whatever its type. -/
def topic? (s : Snapshot) (name : String) : Option TopicView :=
  s.topics.find? (·.key.name == name)

def isEmpty (s : Snapshot) : Bool := s.participants.isEmpty

end Snapshot

def Tally.view (includeInternals : Bool) (t : Tally) : List EntityCount :=
  (t.visible includeInternals).map fun e => ⟨e.1, e.2⟩

def KnownParticipant.view (includeInternals : Bool) (g : GuidPrefix) (p : KnownParticipant) :
    ParticipantView :=
  ⟨g, p.endpoint, p.readers.view includeInternals, p.writers.view includeInternals⟩

namespace TopicView

abbrev Sums := OrderedMap TopicKey (Nat × Nat)

def addReaders (sums : Sums) (readers : List EntityCount) : Sums :=
  readers.foldr (fun e sums => sums.alter e.key fun known =>
    let (publishers, subscribers) := known.getD (0, 0)
    some (publishers, subscribers + e.count)) sums

def addWriters (sums : Sums) (writers : List EntityCount) : Sums :=
  writers.foldr (fun e sums => sums.alter e.key fun known =>
    let (publishers, subscribers) := known.getD (0, 0)
    some (publishers + e.count, subscribers)) sums

/-- The topics that a list of participants has readers or writers on. -/
def ofParticipants (participants : List ParticipantView) : List TopicView :=
  let sums : Sums := participants.foldl
    (fun sums p => addWriters (addReaders sums p.readers) p.writers) .empty
  sums.entries.map fun e => ⟨e.1, e.2.1, e.2.2⟩

end TopicView

def Roster.view (includeInternals : Bool) (r : Roster) : List ParticipantView :=
  r.entries.map fun e => e.2.view includeInternals e.1

def Snapshot.ofRoster (includeInternals : Bool) (version : Nat) (r : Roster) : Snapshot :=
  let participants := r.view includeInternals
  ⟨version, participants, TopicView.ofParticipants participants⟩

/-! ## Graphs -/

/-- What is known at present, and what was published last. -/
structure Graph where
  includeInternals : Bool
  version : Nat
  roster : Roster
  latest : Snapshot

namespace Graph

def new (includeInternals : Bool) : Graph := ⟨includeInternals, 0, .empty, .initial⟩

/-- Take a roster over and publish it under the next version. -/
def publish (g : Graph) (roster : Roster) : Graph :=
  let version := g.version + 1
  { g with version, roster, latest := .ofRoster g.includeInternals version roster }

/-- Fold an event in; one that changes nothing publishes nothing. -/
def apply (g : Graph) (e : Event) : Graph :=
  match g.roster.after? e with
  | none => g
  | some roster => g.publish roster

def applyAll (g : Graph) (events : List Event) : Graph := events.foldl apply g

end Graph

/-! ## JSON forms -/

def EntityCount.toJson (c : EntityCount) : Json :=
  .object [
    ("topic_name", .string c.key.name),
    ("type_name", .string c.key.typeName),
    ("count", .natural c.count)]

def ParticipantView.toJson (p : ParticipantView) : Json :=
  .object [
    ("guid_prefix", .string p.guidPrefix.text),
    ("endpoint", (p.endpoint.map Endpoint.toJson).getD .null),
    ("readers", .array (p.readers.map EntityCount.toJson)),
    ("writers", .array (p.writers.map EntityCount.toJson))]

def TopicView.toJson (t : TopicView) : Json :=
  .object [
    ("name", .string t.key.name),
    ("type_name", .string t.key.typeName),
    ("publishers", .natural t.publishers),
    ("subscribers", .natural t.subscribers)]

def Snapshot.toJson (s : Snapshot) : Json :=
  .object [
    ("version", .natural s.version),
    ("participants", .array (s.participants.map ParticipantView.toJson)),
    ("topics", .array (s.topics.map TopicView.toJson))]

end Rendezvous
