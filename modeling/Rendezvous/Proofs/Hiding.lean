import Rendezvous.Proofs.Retelling

/-!
# Hidden topics

Two graphs that are given the same events know the same and have the same version, whether
they include internal topics or not. Main statement: the one that does not shows what the
other one shows, without the readers, writers and topics of the three internal names.
-/

namespace Rendezvous

open Std

/-! ## Without some names -/

/-- The counts whose topics do not go by one of some names. -/
def EntityCount.without (names : List String) (cs : List EntityCount) : List EntityCount :=
  cs.filter fun c => decide (c.key.name ∉ names)

def ParticipantView.without (names : List String) (v : ParticipantView) : ParticipantView :=
  { v with
    readers := EntityCount.without names v.readers
    writers := EntityCount.without names v.writers }

/-- A snapshot without the readers, writers and topics of some names, and else as it is. -/
def Snapshot.without (names : List String) (s : Snapshot) : Snapshot where
  version := s.version
  participants := s.participants.map (·.without names)
  topics := s.topics.filter fun t => decide (t.key.name ∉ names)

section Without

variable {names : List String}

theorem EntityCount.under_without {key : TopicKey} (hkey : key.name ∉ names)
    (cs : List EntityCount) : under key (without names cs) = under key cs := by
  induction cs with
  | nil => rfl
  | cons c cs ih =>
      by_cases hc : c.key.name ∈ names
      · have hne : c.key ≠ key := fun heq => hkey (heq ▸ hc)
        rw [without, List.filter_cons_of_neg (by simpa using hc), ← without, ih, under_cons,
          if_neg hne, Nat.zero_add]
      · rw [without, List.filter_cons_of_pos (by simpa using hc), ← without, under_cons, ih,
          under_cons]

theorem EntityCount.mem_keys_without {key : TopicKey} {cs : List EntityCount} :
    key ∈ (without names cs).map (·.key) ↔ key ∈ cs.map (·.key) ∧ key.name ∉ names := by
  simp only [List.mem_map, without, List.mem_filter, decide_eq_true_iff]
  constructor
  · rintro ⟨c, ⟨hc, hname⟩, rfl⟩
    exact ⟨⟨c, hc, rfl⟩, hname⟩
  · rintro ⟨⟨c, hc, rfl⟩, hname⟩
    exact ⟨c, ⟨hc, hname⟩, rfl⟩

theorem ParticipantView.lists_without {v : ParticipantView} {key : TopicKey} :
    (v.without names).Lists key ↔ v.Lists key ∧ key.name ∉ names := by
  simp only [Lists, without, EntityCount.mem_keys_without, or_and_right]

/-- Topics are summed up from the readers and writers that are left, or left out afterwards. -/
theorem TopicView.ofParticipants_without (ps : List ParticipantView) :
    ofParticipants (ps.map (·.without names)) =
      (ofParticipants ps).filter fun t => decide (t.key.name ∉ names) := by
  refine eq_of_ordered (ordered_ofParticipants _) ((ordered_ofParticipants ps).filter _)
    fun t => ?_
  have hlisted : (∃ v ∈ ps.map (·.without names), v.Lists t.key) ↔
      (∃ v ∈ ps, v.Lists t.key) ∧ t.key.name ∉ names := by
    simp only [List.mem_map, exists_exists_and_eq_and, ParticipantView.lists_without]
    exact ⟨fun ⟨v, hv, hlists, hname⟩ => ⟨⟨v, hv, hlists⟩, hname⟩,
      fun ⟨⟨v, hv, hlists⟩, hname⟩ => ⟨v, hv, hlists, hname⟩⟩
  rw [List.mem_filter, decide_eq_true_iff, mem_ofParticipants, mem_ofParticipants, hlisted,
    and_right_comm]
  refine and_congr_left fun hname => and_congr_right fun _ => ?_
  have hwriters : ∀ v : ParticipantView, EntityCount.under t.key (v.without names).writers =
      EntityCount.under t.key v.writers := fun v => EntityCount.under_without hname v.writers
  have hreaders : ∀ v : ParticipantView, EntityCount.under t.key (v.without names).readers =
      EntityCount.under t.key v.readers := fun v => EntityCount.under_without hname v.readers
  simp only [List.map_map, Function.comp_def, hwriters, hreaders]

end Without

/-! ## Graphs that hide -/

theorem TopicKey.isVisible_false (key : TopicKey) :
    key.isVisible false = decide (key.name ∉ Topic.internals) := by
  simp [isVisible, Topic.isInternal]

theorem Tally.view_false (t : Tally) :
    t.view false = EntityCount.without Topic.internals (t.view true) := by
  have hall : t.visible true = t.entries := List.filter_eq_self.2 fun _ _ => rfl
  rw [view, view, hall, EntityCount.without, List.filter_map]
  simp only [visible, TopicKey.isVisible_false, Function.comp_def]

theorem Snapshot.ofRoster_false (version : Nat) (r : Roster) :
    ofRoster false version r = (ofRoster true version r).without Topic.internals := by
  have hview : r.view false = (r.view true).map (·.without Topic.internals) := by
    simp only [Roster.view, List.map_map, Function.comp_def, KnownParticipant.view,
      Tally.view_false]
    rfl
  simp only [ofRoster, without, hview, TopicView.ofParticipants_without]

namespace Graph

/-- What is shown and what is left out: after the same events a graph that hides internal topics
shows exactly what one that includes them does, without the three names. -/
theorem latest_hides_internals (events : List Event) :
    (ofEvents false events).latest =
      (ofEvents true events).latest.without
        ["/rosout", "/parameter_events", "/ros_discovery_info"] := by
  have hrecalls : ∀ includeInternals, (ofEvents includeInternals events).Recalls events :=
    fun includeInternals => (recalls_new includeInternals).applyAll events
  have hlatest : ∀ includeInternals, (ofEvents includeInternals events).latest =
      .ofRoster includeInternals (History.newsAfter [] events) (Roster.afterAll .empty events) := by
    intro includeInternals
    have hcurrent : (ofEvents includeInternals events).latest = _ :=
      (hrecalls includeInternals).current
    have hroster : (ofEvents includeInternals events).roster = Roster.afterAll .empty events :=
      roster_applyAll _ _
    rw [hcurrent, includeInternals_ofEvents, (hrecalls includeInternals).version, hroster]
  rw [hlatest, hlatest]
  exact Snapshot.ofRoster_false _ _

end Graph

end Rendezvous
