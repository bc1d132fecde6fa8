import Rendezvous.Proofs.Retelling
import Rendezvous.Proofs.Versions

/-!
# Discoveries undone

Readers and writers that are discovered and then removed, in whatever order, leave every
count and every endpoint as it was. What they do leave is their owner, if nobody had told of
it: it stays listed, with nothing else known. Main statement: the topics are as before, and
the participants are too exactly if every owner was listed already.
-/

namespace Rendezvous

open Std

/-- The events that readers and writers are discovered with, or removed. -/
def Event.each (change : Change) (es : List (EntityKind × EntityRecord)) : List Event :=
  es.map fun e => ⟨change, .entity e.1 e.2⟩

/-- Some readers and writers are discovered, and then some are removed. -/
def Event.passing (found lost : List (EntityKind × EntityRecord)) : List Event :=
  each .discovered found ++ each .removed lost

namespace History

/-! ## What is left of them -/

theorem since_append_of_stays {p : GuidPrefix} {events : List Event}
    (h : ∀ e ∈ events, e.dismisses p = false) (past : List Event) :
    since p (past ++ events) = since p past ++ about p events := by
  induction events generalizing past with
  | nil => rw [about, List.filter_nil, List.append_nil, List.append_nil]
  | cons e events ih =>
      have hrest := fun e' he' => h e' (List.mem_cons_of_mem _ he')
      rw [List.append_cons, ih hrest, since_concat, h e List.mem_cons_self,
        if_neg Bool.false_ne_true]
      by_cases hown : e.record.guidPrefix = p
      · rw [if_pos hown, about_cons_of_eq hown, List.append_assoc, List.singleton_append]
      · rw [if_neg hown, about_cons_of_ne hown]

def ownedBy (p : GuidPrefix) (es : List (EntityKind × EntityRecord)) :
    List (EntityKind × EntityRecord) := es.filter fun e => decide (e.2.guidPrefix = p)

theorem about_each (p : GuidPrefix) (change : Change) (es : List (EntityKind × EntityRecord)) :
    about p (Event.each change es) = Event.each change (ownedBy p es) := by
  rw [about, Event.each, List.filter_map]
  rfl

theorem since_passing (p : GuidPrefix) (past : List Event)
    (found lost : List (EntityKind × EntityRecord)) :
    since p (past ++ Event.passing found lost) =
      since p past ++ Event.passing (ownedBy p found) (ownedBy p lost) := by
  have hstays : ∀ e ∈ Event.passing found lost, e.dismisses p = false := by
    intro e he
    simp only [Event.passing, Event.each, List.mem_append, List.mem_map] at he
    rcases he with ⟨x, _, rfl⟩ | ⟨x, _, rfl⟩ <;> rfl
  rw [since_append_of_stays hstays, Event.passing, about_append, about_each, about_each,
    Event.passing]

def under (kind : EntityKind) (key : TopicKey) (es : List (EntityKind × EntityRecord)) : Nat :=
  es.countP fun e => decide (kind = e.1 ∧ key = .ofRecord e.2)

theorem under_cons (kind : EntityKind) (key : TopicKey) (e : EntityKind × EntityRecord)
    (es : List (EntityKind × EntityRecord)) : under kind key (e :: es) =
      under kind key es + if kind = e.1 ∧ key = .ofRecord e.2 then 1 else 0 := by
  simp [under, List.countP_cons]

/-- Discoveries raise a count as often as they are of its key, and removals lower it so. -/
theorem foldl_recount_each (kind : EntityKind) (key : TopicKey) (change : Change)
    (es : List (EntityKind × EntityRecord)) (count : Nat) :
    (Event.each change es).foldl (Event.recount kind key) count =
      match change with
      | .discovered => count + under kind key es
      | .removed => count - under kind key es := by
  induction es generalizing count with
  | nil => cases change <;> rfl
  | cons e es ih =>
      rw [Event.each, List.map_cons, List.foldl_cons, ← Event.each, ih, under_cons]
      simp only [Event.recount]
      by_cases h : kind = e.1 ∧ key = .ofRecord e.2
      · simp only [if_pos h]
        cases change <;> simp only <;> omega
      · simp only [if_neg h, Nat.add_zero]

section Passing

variable {past : List Event} {found lost : List (EntityKind × EntityRecord)}

/-- As many are removed under each key as were discovered before, so that no removal finds
nothing to undo. -/
theorem countOf_passing (h : lost.Perm found) (p : GuidPrefix) (kind : EntityKind)
    (key : TopicKey) :
    countOf (past ++ Event.passing found lost) p kind key = countOf past p kind key := by
  have hunder : under kind key (ownedBy p lost) = under kind key (ownedBy p found) :=
    (h.filter _).countP_eq _
  rw [countOf, since_passing, List.foldl_append, Event.passing, List.foldl_append,
    foldl_recount_each, foldl_recount_each, hunder]
  exact Nat.add_sub_cancel _ _

theorem endpointOf_passing (p : GuidPrefix) :
    endpointOf (past ++ Event.passing found lost) p = endpointOf past p := by
  have hnone : ∀ change es, (Event.each change es).filterMap Event.announced? = [] := by
    intro change es
    refine List.filterMap_eq_nil_iff.2 fun e he => ?_
    obtain ⟨x, _, rfl⟩ := List.mem_map.1 he
    cases change <;> rfl
  rw [endpointOf, since_passing, List.filterMap_append, Event.passing, List.filterMap_append,
    hnone, hnone, List.append_nil, List.append_nil]
  rfl

theorem isListed_passing (p : GuidPrefix) :
    IsListed (past ++ Event.passing found lost) p ↔
      IsListed past p ∨ ∃ e ∈ found, e.2.guidPrefix = p := by
  have hnew : (∃ e ∈ Event.passing (ownedBy p found) (ownedBy p lost), e.change = .discovered) ↔
      ∃ e ∈ found, e.2.guidPrefix = p := by
    simp [Event.passing, Event.each, ownedBy, or_and_right, exists_or]
  rw [IsListed, since_passing, ← hnew]
  simp only [List.mem_append, or_and_right, exists_or]
  rfl

end Passing

/-- Of a participant that is not listed nothing is told. -/
theorem nothing_of_not_listed {events : List Event} {p : GuidPrefix} (h : ¬ IsListed events p) :
    endpointOf events p = none ∧ ∀ kind key, countOf events p kind key = 0 := by
  have hremoved : ∀ e ∈ since p events, e.change = .removed := by
    intro e he
    cases hchange : e.change with
    | discovered => exact absurd ⟨e, he, hchange⟩ h
    | removed => rfl
  constructor
  · have hnone : (since p events).filterMap Event.announced? = [] := by
      refine List.filterMap_eq_nil_iff.2 fun e he => ?_
      obtain ⟨change, record⟩ := e
      cases hremoved _ he
      cases record <;> rfl
    rw [endpointOf, hnone]
    rfl
  · intro kind key
    rw [countOf]
    generalize since p events = es at hremoved
    induction es with
    | nil => rfl
    | cons e es ih =>
        obtain ⟨change, record⟩ := e
        cases hremoved _ List.mem_cons_self
        have hzero : Event.recount kind key 0 ⟨.removed, record⟩ = 0 := by
          cases record <;> simp [Event.recount]
        rw [List.foldl_cons, hzero]
        exact ih fun e he => hremoved e (List.mem_cons_of_mem _ he)

end History

/-! ## What is shown of them -/

open History

def ParticipantView.bare (p : GuidPrefix) : ParticipantView := ⟨p, none, [], []⟩

theorem sum_filter_of_zero {α : Type} {q : α → Bool} {f : α → Nat} {xs : List α}
    (h : ∀ x ∈ xs, q x = false → f x = 0) : ((xs.filter q).map f).sum = (xs.map f).sum := by
  induction xs with
  | nil => rfl
  | cons x xs ih =>
      have ih := ih fun y hy => h y (List.mem_cons_of_mem _ hy)
      cases hq : q x with
      | true =>
          rw [List.filter_cons_of_pos hq, List.map_cons, List.sum_cons, ih, List.map_cons,
            List.sum_cons]
      | false =>
          have hzero : f x = 0 := h x List.mem_cons_self hq
          rw [List.filter_cons_of_neg (Bool.eq_false_iff.1 hq), ih, List.map_cons, List.sum_cons,
            hzero, Nat.zero_add]

theorem Counts.nil {count : TopicKey → Nat} (h : ∀ key, count key = 0) (includeInternals : Bool) :
    Counts includeInternals count [] where
  ordered := .nil
  mem_iff key n := by
    rw [h]
    simp only [List.not_mem_nil, false_iff]
    omega

section Passing

variable {includeInternals : Bool} {past : List Event}
  {found lost : List (EntityKind × EntityRecord)} {s s' : Snapshot}

theorem ParticipantView.retells_bare {p : GuidPrefix} (h : ¬ IsListed past p) :
    (bare p).Retells includeInternals past where
  endpoint := (nothing_of_not_listed h).1.symm
  readers := .nil ((nothing_of_not_listed h).2 .reader) _
  writers := .nil ((nothing_of_not_listed h).2 .writer) _

theorem ParticipantView.retells_passing (hperm : lost.Perm found) {v : ParticipantView} :
    v.Retells includeInternals (past ++ Event.passing found lost) ↔
      v.Retells includeInternals past := by
  have hendpoint : endpointOf (past ++ Event.passing found lost) v.guidPrefix =
      endpointOf past v.guidPrefix := endpointOf_passing _
  have hcount : ∀ kind, countOf (past ++ Event.passing found lost) v.guidPrefix kind =
      countOf past v.guidPrefix kind := fun kind => funext fun key => countOf_passing hperm _ _ _
  constructor
  · rintro ⟨hshown, hreaders, hwriters⟩
    rw [hcount] at hreaders hwriters
    exact ⟨hshown.trans hendpoint, hreaders, hwriters⟩
  · rintro ⟨hshown, hreaders, hwriters⟩
    rw [← hcount] at hreaders hwriters
    exact ⟨hshown.trans hendpoint.symm, hreaders, hwriters⟩

namespace Snapshot.Retells

variable (h : s.Retells includeInternals past)
  (h' : s'.Retells includeInternals (past ++ Event.passing found lost))
  (hperm : lost.Perm found)

include h h' hperm

/-- Nobody is gone, and who is new has nothing to show. -/
theorem mem_participants_passing (v : ParticipantView) :
    v ∈ s'.participants ↔ v ∈ s.participants ∨
      ¬ IsListed past v.guidPrefix ∧ (∃ e ∈ found, e.2.guidPrefix = v.guidPrefix) ∧
        v = .bare v.guidPrefix := by
  rw [h'.mem_participants, h.mem_participants, isListed_passing,
    ParticipantView.retells_passing hperm]
  by_cases hlisted : IsListed past v.guidPrefix
  · simp [hlisted]
  · have hbare : v.Retells includeInternals past ↔ v = .bare v.guidPrefix := by
      constructor
      · intro hv
        exact hv.unique (ParticipantView.retells_bare hlisted) rfl
      · intro hv
        rw [hv]
        exact ParticipantView.retells_bare hlisted
    simp [hlisted, hbare]

theorem participants_passing_iff : s'.participants = s.participants ↔
    ∀ e ∈ found, e.2.guidPrefix ∈ s.participants.map (·.guidPrefix) := by
  constructor
  · intro heq e he
    rw [← heq, h'.listed, isListed_passing]
    exact .inr ⟨e, he, rfl⟩
  · intro hlisted
    refine eq_of_ordered h'.participants_ordered h.participants_ordered fun v => ?_
    rw [h.mem_participants_passing h' hperm, or_iff_left_iff_imp]
    rintro ⟨hnot, ⟨e, he, hp⟩, _⟩
    exact absurd ((h.listed _).1 (hp ▸ hlisted e he)) hnot

theorem participants_eq_filter :
    s.participants = s'.participants.filter fun v => decide (IsListed past v.guidPrefix) := by
  refine eq_of_ordered h.participants_ordered (h'.participants_ordered.filter _) fun v => ?_
  rw [List.mem_filter, decide_eq_true_iff, h.mem_participants_passing h' hperm]
  constructor
  · intro hv
    exact ⟨.inl hv, ((h.mem_participants v).1 hv).1⟩
  · rintro ⟨hv | ⟨hnot, _⟩, hlisted⟩
    · exact hv
    · exact absurd hlisted hnot

theorem sum_participants_passing (kind : EntityKind) (key : TopicKey) :
    (s'.participants.map fun v =>
        countOf (past ++ Event.passing found lost) v.guidPrefix kind key).sum =
      (s.participants.map fun v => countOf past v.guidPrefix kind key).sum := by
  simp only [countOf_passing hperm]
  rw [h.participants_eq_filter h' hperm]
  refine (sum_filter_of_zero fun v _ hnot => ?_).symm
  exact (nothing_of_not_listed (of_decide_eq_false hnot)).2 kind key

theorem topics_passing : s'.topics = s.topics := by
  refine eq_of_ordered h'.topics_ordered h.topics_ordered fun t => ?_
  have hlists : (∃ v ∈ s'.participants, v.Lists t.key) ↔ ∃ v ∈ s.participants, v.Lists t.key := by
    constructor
    · rintro ⟨v, hv, hkey⟩
      rcases (h.mem_participants_passing h' hperm v).1 hv with hold | ⟨_, _, hbare⟩
      · exact ⟨v, hold, hkey⟩
      · rw [hbare] at hkey
        simp [ParticipantView.Lists, ParticipantView.bare] at hkey
    · rintro ⟨v, hv, hkey⟩
      exact ⟨v, (h.mem_participants_passing h' hperm v).2 (.inl hv), hkey⟩
  rw [h'.mem_topics, h.mem_topics, hlists, h.sum_participants_passing h' hperm,
    h.sum_participants_passing h' hperm]

end Snapshot.Retells

end Passing

namespace Graph

theorem retells_ofEvents (includeInternals : Bool) (events : List Event) :
    (ofEvents includeInternals events).latest.Retells includeInternals events := by
  have h := ((recalls_new includeInternals).applyAll events).retells
  rwa [includeInternals_applyAll] at h

/-- Where readers and writers are discovered and the same ones removed, in whatever order, the
topics are as before, and nothing is different with the participants but that owners that were
not listed are now, without anything to show. -/
theorem removals_undo (includeInternals : Bool) (past : List Event)
    {found lost : List (EntityKind × EntityRecord)} (hperm : lost.Perm found) :
    (ofEvents includeInternals (past ++ Event.passing found lost)).latest.topics =
        (ofEvents includeInternals past).latest.topics ∧
      ((ofEvents includeInternals (past ++ Event.passing found lost)).latest.participants =
          (ofEvents includeInternals past).latest.participants ↔
        ∀ e ∈ found, e.2.guidPrefix ∈
          (ofEvents includeInternals past).latest.participants.map (·.guidPrefix)) ∧
      ∀ v, v ∈ (ofEvents includeInternals
            (past ++ Event.passing found lost)).latest.participants ↔
        v ∈ (ofEvents includeInternals past).latest.participants ∨
          v.guidPrefix ∉ (ofEvents includeInternals past).latest.participants.map (·.guidPrefix) ∧
            (∃ e ∈ found, e.2.guidPrefix = v.guidPrefix) ∧ v = .bare v.guidPrefix := by
  have h := retells_ofEvents includeInternals past
  have h' := retells_ofEvents includeInternals (past ++ Event.passing found lost)
  refine ⟨h.topics_passing h' hperm, h.participants_passing_iff h' hperm, fun v => ?_⟩
  rw [h.listed]
  exact h.mem_participants_passing h' hperm v

/-- A reader and a writer of the participant that arrives. -/
def company : List (EntityKind × EntityRecord) :=
  [(.reader, ⟨.ofString "rt/chatter", .ofString "String", arrival.record.guidPrefix, .shm⟩),
    (.writer, ⟨.ofString "/chatter", .ofString "String", arrival.record.guidPrefix, .shm⟩)]

theorem company_undone :
    company.reverse.Perm company ∧
      (ofEvents false ([arrival] ++ Event.passing company company.reverse)).latest.topics = [] ∧
      (ofEvents false ([arrival] ++ Event.passing company company.reverse)).latest.participants =
        [⟨arrival.record.guidPrefix, some .shm, [], []⟩] := by
  have hparticipants : (ofEvents false [arrival]).latest.participants =
      [⟨arrival.record.guidPrefix, some .shm, [], []⟩] := by cbv
  have htopics : (ofEvents false [arrival]).latest.topics = [] := by cbv
  obtain ⟨hsame, hiff, _⟩ := removals_undo false [arrival] company.reverse_perm
  refine ⟨company.reverse_perm, hsame.trans htopics, (hiff.2 fun e he => ?_).trans hparticipants⟩
  rw [hparticipants]
  simp only [company, List.mem_cons, List.not_mem_nil, or_false] at he
  rcases he with rfl | rfl <;> exact List.mem_cons_self

/-- The same reader and writer leave their owner behind if it has not arrived. -/
theorem not_removals_undo : company.reverse.Perm company ∧
    (ofEvents false (Event.passing company company.reverse)).latest.participants ≠
      (ofEvents false []).latest.participants := by
  have hparticipants : (ofEvents false (Event.passing company
      company.reverse)).latest.participants = [.bare arrival.record.guidPrefix] := by cbv
  refine ⟨company.reverse_perm, ?_⟩
  rw [hparticipants]
  exact List.cons_ne_nil _ _

end Graph

end Rendezvous
