import Mathlib.Data.List.Perm.Basic
import Rendezvous.Proofs.Folding
import Rendezvous.Proofs.Membership

/-!
# What members announce, folded into what is known of them

Whatever a member becomes, the events of what the others are told of it turn what was
known of it into what is to be known of it now. What is to be known of a member are its
endpoint and how many readers and writers it has under each key.
-/

namespace Rendezvous

/-- The key under which a reader or writer is counted. -/
def Entity.key (e : Entity) : TopicKey :=
  ⟨Topic.hostName (.ofString e.topicName), (BoundedName.ofString e.typeName).text⟩

def keysOf (es : List Entity) (kind : EntityKind) : List TopicKey :=
  (es.filter (·.kind == kind)).map Entity.key

theorem keysOf_append_entity (es : List Entity) (e : Entity) (kind : EntityKind) :
    keysOf (es ++ [e]) kind = keysOf es kind ++ if e.kind = kind then [e.key] else [] := by
  rw [keysOf, List.filter_append, List.map_append, keysOf]
  by_cases hkind : e.kind = kind <;> simp [hkind]

def eventsOf (ns : List Notification) : List Event := ns.filterMap Notification.event?

theorem eventsOf_append (ns ns' : List Notification) :
    eventsOf (ns ++ ns') = eventsOf ns ++ eventsOf ns' := List.filterMap_append

theorem eventsOf_cons (n : Notification) (ns : List Notification) :
    eventsOf (n :: ns) = n.event?.toList ++ eventsOf ns := by
  rw [eventsOf, List.filterMap_cons]
  cases n.event? <;> rfl

namespace KnownParticipant

theorem ext_tally {p p' : KnownParticipant} (he : p.endpoint = p'.endpoint)
    (ht : ∀ kind, p.tally kind = p'.tally kind) : p = p' := by
  have hr := ht .reader
  have hw := ht .writer
  cases p
  cases p'
  simp_all [tally]

theorem tally_mapTally (p : KnownParticipant) (kind kind' : EntityKind) (f : Tally → Tally) :
    (p.mapTally kind f).tally kind' = if kind' = kind then f (p.tally kind) else p.tally kind' := by
  cases kind <;> cases kind' <;> rfl

theorem endpoint_mapTally (p : KnownParticipant) (kind : EntityKind) (f : Tally → Tally) :
    (p.mapTally kind f).endpoint = p.endpoint := by
  cases kind <;> rfl

end KnownParticipant

namespace Profile

open KnownParticipant

/-- What is to be known of a participant with some readers and writers. -/
def known (p : Profile) (es : List Entity) : KnownParticipant :=
  ⟨some (.ofFirst p.locators), .ofKeys (keysOf es .reader), .ofKeys (keysOf es .writer)⟩

theorem tally_known (p : Profile) (es : List Entity) (kind : EntityKind) :
    (p.known es).tally kind = .ofKeys (keysOf es kind) := by
  cases kind <;> rfl

theorem afterEvent_discovered (p : Profile) (es : List Entity) (e : Entity) :
    afterEvent (some (p.known es)) ⟨.discovered, (Subject.entity p.guidPrefix e).record⟩ =
      some (p.known (es ++ [e])) := by
  refine congrArg some (ext_tally (endpoint_mapTally _ _ _) fun kind => ?_)
  rw [Option.getD_some, tally_mapTally, tally_known, tally_known, tally_known,
    keysOf_append_entity]
  by_cases hkind : e.kind = kind
  · subst hkind
    rw [if_pos rfl, if_pos rfl, Tally.ofKeys_append_key]
    rfl
  · rw [if_neg (Ne.symm hkind), if_neg hkind, List.append_nil]

/-- The order in which readers and writers were announced does not matter as one of them is
withdrawn. -/
theorem afterEvent_removed (p : Profile) {es rest : List Entity} {e : Entity}
    (h : es.Perm (e :: rest)) :
    afterEvent (some (p.known es)) ⟨.removed, (Subject.entity p.guidPrefix e).record⟩ =
      some (p.known rest) := by
  refine congrArg some (ext_tally (endpoint_mapTally _ _ _) fun kind => ?_)
  have hkeys : (keysOf es kind).Perm (keysOf (e :: rest) kind) := (h.filter _).map _
  rw [tally_mapTally, tally_known, tally_known, tally_known]
  by_cases hkind : e.kind = kind
  · subst hkind
    rw [if_pos rfl]
    rw [keysOf, keysOf, List.filter_cons_of_pos (by simp), List.map_cons] at hkeys
    exact Tally.lower_ofKeys hkeys
  · rw [if_neg (Ne.symm hkind)]
    rw [keysOf, keysOf, List.filter_cons_of_neg (by simpa using hkind)] at hkeys
    exact Tally.ofKeys_congr hkeys

end Profile

namespace Member

open KnownParticipant

def keys (m : Member) (kind : EntityKind) : List TopicKey := keysOf m.entities kind

def known (m : Member) : KnownParticipant := m.profile.known m.entities

def seen (m : Member) : Option KnownParticipant := if m.enabled then some m.known else none

theorem seen_eq_some_iff {m : Member} {known : KnownParticipant} :
    m.seen = some known ↔ m.enabled = true ∧ m.known = known := by
  unfold seen
  split <;> simp_all

theorem entities_announce (m : Member) (e : Entity) :
    (m.announce e).entities = m.entities ++ [e] := by
  simp [entities, announce]

theorem perm_entities_withdraw {m : Member} {id : EntityId} {e : Entity}
    (h : m.entity? id = some e) : m.entities.Perm (e :: (m.withdraw id).entities) := by
  have hmem : e ∈ m.entities := List.mem_of_find?_eq_some h
  have hid : (e.id == id) = true := List.find?_some (p := fun e : Entity => e.id == id) h
  obtain ⟨e', front, back, hfront, hid', hsplit, herase⟩ :=
    List.exists_of_eraseP (p := fun e : Entity => e.id == id) hmem hid
  have hsame : e' = e := by
    have hnone : front.find? (·.id == id) = none := List.find?_eq_none.2 hfront
    rw [entity?, hsplit, List.find?_append, hnone, List.find?_cons, hid'] at h
    exact Option.some.inj h
  have hrest : (m.withdraw id).entities = front ++ back := by
    simp [withdraw, entities, ← herase]
  rw [hrest, hsplit, hsame]
  exact List.perm_middle

/-- The events of a change turn what was known of a member into what is to be known of it. -/
theorem Change.foldl_afterEvent {k : Handle} {m : Member} {after : Option Member}
    {ns : List Notification} (hc : m.Change k after ns) (hen : m.enabled = true) :
    (eventsOf ns).foldl afterEvent (some m.known) = after.bind seen := by
  have hfarewell : (eventsOf (m.farewell k)).foldl afterEvent (some m.known) = none := by
    rw [farewell, eventsOf_append, List.foldl_append]
    rfl
  cases hc with
  | announce e =>
      rw [Option.bind_some, seen, if_pos (show (m.announce e).enabled = true from hen), known,
        known, entities_announce]
      exact m.profile.afterEvent_discovered m.entities e
  | @withdraw id e h =>
      rw [Option.bind_some, seen, if_pos (show (m.withdraw id).enabled = true from hen)]
      exact m.profile.afterEvent_removed (perm_entities_withdraw h)
  | changeQos =>
      rw [Option.bind_some, seen, if_pos hen]
      rfl
  | close =>
      rw [hfarewell]
      rfl
  | delete => exact hfarewell

theorem foldl_afterEvent_entities (m : Member) (es es' : List Entity) :
    (eventsOf (es'.map (m.tell .discovered))).foldl afterEvent (some (m.profile.known es)) =
      some (m.profile.known (es ++ es')) := by
  induction es' generalizing es with
  | nil => simp [eventsOf]
  | cons e es' ih =>
      have hhead := m.profile.afterEvent_discovered es e
      rw [List.map_cons, eventsOf_cons, List.foldl_append, List.append_cons, ← ih, ← hhead]
      rfl

theorem foldl_afterEvent_introduction (m : Member) (k : Handle) :
    (eventsOf (m.introduction k)).foldl afterEvent none = some m.known := by
  have hfirst : afterEvent none ⟨.discovered, (Subject.participant k m.profile).record⟩ =
      some (m.profile.known []) := rfl
  rw [introduction, eventsOf_cons, List.foldl_append]
  simp only [tellOf, Notification.event?, Option.toList_some, List.foldl_cons, List.foldl_nil]
  rw [hfirst, foldl_afterEvent_entities, List.nil_append, known]

/-! ## Whom a word is about -/

theorem guidPrefix_of_mem_eventsOf_farewell {m : Member} {k : Handle} {e : Event}
    (he : e ∈ eventsOf (m.farewell k)) : e.record.guidPrefix = m.profile.guidPrefix := by
  obtain ⟨n, hn, hevent⟩ := List.mem_filterMap.1 he
  rcases List.mem_append.1 hn with hn | hn
  · obtain ⟨_, _, rfl⟩ := List.mem_map.1 hn
    cases hevent
    rfl
  · cases List.mem_singleton.1 hn
    cases hevent
    rfl

theorem guidPrefix_of_mem_eventsOf_introduction {m : Member} {k : Handle} {e : Event}
    (he : e ∈ eventsOf (m.introduction k)) : e.record.guidPrefix = m.profile.guidPrefix := by
  obtain ⟨n, hn, hevent⟩ := List.mem_filterMap.1 he
  rcases List.mem_cons.1 hn with rfl | hn
  · cases hevent
    rfl
  · obtain ⟨_, _, rfl⟩ := List.mem_map.1 hn
    cases hevent
    rfl

theorem Change.guidPrefix_of_mem_eventsOf {k : Handle} {m : Member} {after : Option Member}
    {ns : List Notification} (hc : m.Change k after ns) {e : Event} (he : e ∈ eventsOf ns) :
    e.record.guidPrefix = m.profile.guidPrefix := by
  cases hc with
  | announce => exact congrArg (·.record.guidPrefix) (List.mem_singleton.1 he)
  | withdraw => exact congrArg (·.record.guidPrefix) (List.mem_singleton.1 he)
  | changeQos => cases he
  | close => exact guidPrefix_of_mem_eventsOf_farewell he
  | delete => exact guidPrefix_of_mem_eventsOf_farewell he

end Member

end Rendezvous
