import Rendezvous.Proofs.Announcements

/-!
# What a roster recalls of a history

Of the events of a prefix only those since its participant was removed last count: whether
something was discovered, which endpoint was announced last, and how many readers and
writers are left under each key. All of this is read off the list of events. Main
statement: after any list of events a roster knows exactly this of each prefix.
-/

namespace Rendezvous

namespace Event

def dismisses (p : GuidPrefix) : Event → Bool
  | ⟨.removed, .participant record⟩ => decide (record.guidPrefix = p)
  | _ => false

def announced? : Event → Option Endpoint
  | ⟨.discovered, .participant record⟩ => some record.endpoint
  | _ => none

/-- One more reader or writer under a key, or one less if there is any. -/
def recount (kind : EntityKind) (key : TopicKey) (count : Nat) (e : Event) : Nat :=
  match e.record with
  | .participant _ => count
  | .entity kind' record =>
      if kind = kind' ∧ key = .ofRecord record then
        match e.change with
        | .discovered => count + 1
        | .removed => count - 1
      else count

theorem dismisses_of_ne {e : Event} {p : GuidPrefix} (h : e.record.guidPrefix ≠ p) :
    e.dismisses p = false := by
  obtain ⟨change, record⟩ := e
  cases change <;> cases record <;> simp_all [dismisses, Record.guidPrefix]

/-- Readers and writers say nothing of the endpoint of their participant. -/
theorem filterMap_announced?_concat_entity (es : List Event) (change : Change)
    (kind : EntityKind) (record : EntityRecord) :
    (es ++ [(⟨change, .entity kind record⟩ : Event)]).filterMap announced? =
      es.filterMap announced? := by
  cases change <;> simp [announced?]

end Event

namespace History

/-- The events of a prefix since its participant was removed last. -/
def since (p : GuidPrefix) (events : List Event) : List Event :=
  ((events.reverse.takeWhile fun e => !e.dismisses p).filter
    fun e => decide (e.record.guidPrefix = p)).reverse

/-- Whether the participant, or a reader or writer of it, was discovered since then. -/
def IsListed (events : List Event) (p : GuidPrefix) : Prop :=
  ∃ e ∈ since p events, e.change = .discovered

instance (events : List Event) (p : GuidPrefix) : Decidable (IsListed events p) :=
  inferInstanceAs (Decidable (∃ e ∈ since p events, e.change = .discovered))

/-- The endpoint that was announced last since then. -/
def endpointOf (events : List Event) (p : GuidPrefix) : Option Endpoint :=
  ((since p events).filterMap Event.announced?).getLast?

/-- How many readers or writers are left under a key. -/
def countOf (events : List Event) (p : GuidPrefix) (kind : EntityKind) (key : TopicKey) : Nat :=
  (since p events).foldl (Event.recount kind key) 0

/-- Whether an event changes what is to be known. -/
def isNews (past : List Event) (e : Event) : Bool :=
  match e.change, e.record with
  | .discovered, .participant record =>
      decide (endpointOf past record.guidPrefix ≠ some record.endpoint)
  | .removed, .participant record => decide (IsListed past record.guidPrefix)
  | .discovered, .entity _ _ => true
  | .removed, .entity kind record =>
      decide (0 < countOf past record.guidPrefix kind (.ofRecord record))

/-- How many events of a list are news, each as the ones before it have left things. -/
def newsAfter (past : List Event) : List Event → Nat
  | [] => 0
  | e :: rest => (if isNews past e then 1 else 0) + newsAfter (past ++ [e]) rest

theorem newsAfter_concat (past events : List Event) (e : Event) :
    newsAfter past (events ++ [e]) =
      newsAfter past events + if isNews (past ++ events) e then 1 else 0 := by
  induction events generalizing past with
  | nil => simp [newsAfter]
  | cons e' events ih =>
      rw [List.cons_append, newsAfter, newsAfter, ih, List.append_assoc, List.singleton_append,
        Nat.add_assoc]

theorem since_concat (p : GuidPrefix) (events : List Event) (e : Event) :
    since p (events ++ [e]) =
      if e.dismisses p then []
      else if e.record.guidPrefix = p then since p events ++ [e] else since p events := by
  simp only [since, List.reverse_append, List.reverse_singleton, List.singleton_append,
    List.takeWhile_cons]
  by_cases hgone : e.dismisses p = true
  · simp [hgone]
  · by_cases hown : e.record.guidPrefix = p <;> simp [hgone, hown]

end History

/-- A count as a tally keeps it: zero is not kept. -/
def positive? (count : Nat) : Option Nat := if count = 0 then none else some count

@[simp] theorem getD_positive? (count : Nat) : (positive? count).getD 0 = count := by
  unfold positive?
  split <;> simp_all

theorem positive?_eq_some_iff {count n : Nat} :
    positive? count = some n ↔ 0 < n ∧ n = count := by
  unfold positive?
  split <;> simp <;> omega

theorem isSome_positive? (count : Nat) : (positive? count).isSome = true ↔ 0 < count := by
  unfold positive?
  split
  · simp_all
  · simp
    omega

theorem bind_positive? (count : Nat) :
    ((positive? count).bind fun n => if n ≤ 1 then none else some (n - 1)) =
      positive? (count - 1) := by
  unfold positive?
  by_cases hzero : count = 0
  · simp [hzero]
  · by_cases hone : count ≤ 1
    · have hnext : count - 1 = 0 := by omega
      simp [hzero, hone, hnext]
    · have hnext : count - 1 ≠ 0 := by omega
      simp [hzero, hone, hnext]

namespace KnownParticipant

def count? (known : Option KnownParticipant) (kind : EntityKind) (key : TopicKey) : Option Nat :=
  known.bind fun p => (p.tally kind).find? key

theorem endpoint_getD_blank (known : Option KnownParticipant) :
    (known.getD blank).endpoint = known.bind (·.endpoint) := by
  cases known <;> rfl

theorem find?_tally_getD_blank (known : Option KnownParticipant) (kind : EntityKind)
    (key : TopicKey) : ((known.getD blank).tally kind).find? key = count? known kind key := by
  cases known with
  | none => cases kind <;> rfl
  | some p => rfl

/-- Whether this is what is to be known after some events of a prefix, with no removal of the
participant among them. -/
structure Recalls (known : Option KnownParticipant) (es : List Event) : Prop where
  listed : known.isSome = true ↔ ∃ e ∈ es, e.change = .discovered
  endpoint : known.bind (·.endpoint) = (es.filterMap Event.announced?).getLast?
  count : ∀ kind key, count? known kind key = positive? (es.foldl (Event.recount kind key) 0)

theorem recalls_nil : Recalls none [] where
  listed := by simp
  endpoint := rfl
  count _ _ := rfl

section Recalls

variable {known : Option KnownParticipant} {es : List Event}

theorem Recalls.announce (h : Recalls known es) (record : ParticipantRecord) :
    Recalls (afterEvent known ⟨.discovered, .participant record⟩)
      (es ++ [⟨.discovered, .participant record⟩]) where
  listed := by simp [afterEvent]
  endpoint := by simp [afterEvent, Event.announced?, List.filterMap_append]
  count kind key := by
    have hold := find?_tally_getD_blank known kind key
    rw [List.foldl_append, List.foldl_cons, List.foldl_nil, Event.recount, ← h.count, ← hold]
    cases kind <;> rfl

theorem Recalls.discover (h : Recalls known es) (kind : EntityKind) (record : EntityRecord) :
    Recalls (afterEvent known ⟨.discovered, .entity kind record⟩)
      (es ++ [⟨.discovered, .entity kind record⟩]) where
  listed := by simp [afterEvent]
  endpoint := by
    rw [Event.filterMap_announced?_concat_entity, ← h.endpoint, ← endpoint_getD_blank known]
    exact endpoint_mapTally _ _ _
  count kind' key := by
    have hold := find?_tally_getD_blank known kind' key
    rw [h.count] at hold
    rw [List.foldl_append, List.foldl_cons, List.foldl_nil, Event.recount]
    simp only [count?, afterEvent, Option.bind_some, tally_mapTally]
    by_cases hkind : kind' = kind
    · subst hkind
      rw [if_pos rfl, Tally.find?_raise]
      by_cases hkey : key = .ofRecord record
      · subst hkey
        rw [if_pos rfl, if_pos ⟨rfl, rfl⟩, hold, getD_positive?]
        rfl
      · rw [if_neg hkey, if_neg (hkey ·.2), hold]
    · rw [if_neg hkind, if_neg (hkind ·.1), hold]

theorem Recalls.remove (h : Recalls known es) (kind : EntityKind) (record : EntityRecord) :
    Recalls (afterEvent known ⟨.removed, .entity kind record⟩)
      (es ++ [⟨.removed, .entity kind record⟩]) where
  listed := by simpa [afterEvent, or_and_right, exists_or] using h.listed
  endpoint := by
    rw [Event.filterMap_announced?_concat_entity, ← h.endpoint]
    cases known with
    | none => rfl
    | some p => exact endpoint_mapTally _ _ _
  count kind' key := by
    have hold := h.count kind' key
    rw [List.foldl_append, List.foldl_cons, List.foldl_nil]
    cases known with
    | none =>
        -- Nothing is kept, so the count is zero already, and stays so.
        have hzero : es.foldl (Event.recount kind' key) 0 = 0 := by
          have hgetD := congrArg (·.getD 0) hold
          simpa [count?] using hgetD.symm
        simp [hzero, Event.recount, KnownParticipant.afterEvent, count?, positive?]
    | some p =>
        simp only [Event.recount]
        simp only [count?, Option.bind_some] at hold
        simp only [count?, afterEvent, Option.map_some, Option.bind_some, tally_mapTally]
        by_cases hkind : kind' = kind
        · subst hkind
          rw [if_pos rfl, Tally.find?_lower]
          by_cases hkey : key = .ofRecord record
          · subst hkey
            rw [if_pos rfl, if_pos ⟨rfl, rfl⟩, hold, bind_positive?]
          · rw [if_neg hkey, if_neg (hkey ·.2), hold]
        · rw [if_neg hkind, if_neg (hkind ·.1), hold]

theorem Recalls.afterEvent (h : Recalls known es) {e : Event}
    (hstays : e.dismisses e.record.guidPrefix = false) :
    Recalls (KnownParticipant.afterEvent known e) (es ++ [e]) := by
  obtain ⟨change, record⟩ := e
  cases change with
  | discovered =>
      cases record with
      | participant record => exact h.announce record
      | entity kind record => exact h.discover kind record
  | removed =>
      cases record with
      | participant record => simp [Event.dismisses, Record.guidPrefix] at hstays
      | entity kind record => exact h.remove kind record

end Recalls

end KnownParticipant

namespace Roster

open History KnownParticipant

def Recalls (r : Roster) (events : List Event) : Prop :=
  ∀ p, KnownParticipant.Recalls (r.find? p) (since p events)

theorem recalls_empty : Recalls .empty [] := fun _ => recalls_nil

theorem Recalls.after {r : Roster} {events : List Event} (h : r.Recalls events) (e : Event) :
    (r.after e).Recalls (events ++ [e]) := by
  intro p
  rw [find?_after, since_concat]
  by_cases hown : p = e.record.guidPrefix
  · subst hown
    rw [if_pos rfl, if_pos rfl]
    cases hgone : e.dismisses e.record.guidPrefix with
    | false => exact (h _).afterEvent hgone
    | true =>
        obtain ⟨change, record⟩ := e
        cases change <;> cases record <;> simp [Event.dismisses] at hgone
        exact recalls_nil
  · rw [if_neg hown, Event.dismisses_of_ne (Ne.symm hown), if_neg Bool.false_ne_true,
      if_neg (Ne.symm hown)]
    exact h p

/-- A roster takes over exactly the events that are news. -/
theorem Recalls.isSome_after? {r : Roster} {events : List Event} (h : r.Recalls events)
    (e : Event) : (r.after? e).isSome = isNews events e := by
  have hknown := h e.record.guidPrefix
  obtain ⟨change, record⟩ := e
  cases change <;> cases record <;> simp only [after?, isNews]
  case discovered.participant record =>
    have hendpoint : (r.find? record.guidPrefix).bind (·.endpoint) =
        endpointOf events record.guidPrefix := hknown.endpoint
    rw [hendpoint]
    split <;> simp_all
  case discovered.entity kind record => rfl
  case removed.participant record =>
    have hlisted : r.contains record.guidPrefix = true ↔ IsListed events record.guidPrefix :=
      hknown.listed
    split <;> simp_all
  case removed.entity kind record =>
    have hcount := hknown.count kind (.ofRecord record)
    simp only [Record.guidPrefix] at hcount
    rw [Bool.eq_iff_iff, decide_eq_true_iff, countOf, ← isSome_positive?, ← hcount]
    cases r.find? record.guidPrefix with
    | none => simp [count?]
    | some known =>
        have hkept : (count? (some known) kind (.ofRecord record)).isSome =
            (known.tally kind).contains (.ofRecord record) := rfl
        rw [hkept]
        cases hthere : (known.tally kind).contains (.ofRecord record) <;> simp [hthere]

end Roster

namespace Graph

open History

structure Recalls (g : Graph) (events : List Event) : Prop where
  current : g.IsCurrent
  version : g.version = newsAfter [] events
  roster : g.roster.Recalls events

theorem recalls_new (includeInternals : Bool) : (new includeInternals).Recalls [] where
  current := isCurrent_new includeInternals
  version := rfl
  roster := Roster.recalls_empty

theorem Recalls.apply {g : Graph} {events : List Event} (h : g.Recalls events) (e : Event) :
    (g.apply e).Recalls (events ++ [e]) where
  current := h.current.apply e
  version := by
    rw [version_apply, newsAfter_concat, List.nil_append, h.version, h.roster.isSome_after?]
  roster := by
    rw [roster_apply]
    exact h.roster.after e

theorem Recalls.applyAll {g : Graph} {past : List Event} (h : g.Recalls past)
    (events : List Event) : (g.applyAll events).Recalls (past ++ events) := by
  induction events generalizing g past with
  | nil => exact (List.append_nil past).symm ▸ h
  | cons e events ih =>
      rw [applyAll_cons, List.append_cons]
      exact ih (h.apply e)

end Graph

end Rendezvous
