import Rendezvous.Proofs.Announcements

/-!
# Versions of a graph

An event either changes the roster of a graph, and is then published under the next version,
or leaves the whole graph as it was. Events of different prefixes do not see each other.
Main statement: a version counts the changes, names one snapshot of a run, and does not
depend on how the events of different prefixes are interleaved.
-/

namespace Rendezvous

/-! ## Changes -/

namespace Tally

theorem raise_ne (t : Tally) (k : TopicKey) : t.raise k ≠ t := by
  intro h
  have hfind := congrArg (·.find? k) h
  simp only [find?_raise, if_true] at hfind
  cases hold : t.find? k <;> simp [hold] at hfind

theorem lower_ne {t : Tally} {k : TopicKey} (hk : t.contains k = true) : t.lower k ≠ t := by
  intro h
  obtain ⟨count, hold⟩ := Option.isSome_iff_exists.1 hk
  have hfind := congrArg (·.find? k) h
  simp only [find?_lower, if_true, hold, Option.bind_some] at hfind
  split at hfind
  · cases hfind
  · have hless := Option.some.inj hfind
    omega

end Tally

theorem KnownParticipant.mapTally_ne (p : KnownParticipant) {kind : EntityKind}
    {f : Tally → Tally} (h : f (p.tally kind) ≠ p.tally kind) : p.mapTally kind f ≠ p := by
  intro heq
  have htally := congrArg (·.tally kind) heq
  simp only [tally_mapTally, if_true] at htally
  exact h htally

namespace Roster

/-- An event changes a roster if it changes what is known under its prefix. -/
theorem after_eq_self_iff {r : Roster} {e : Event} :
    r.after e = r ↔
      KnownParticipant.afterEvent (r.find? e.record.guidPrefix) e =
        r.find? e.record.guidPrefix := by
  constructor
  · intro h
    have hfind := find?_after r e e.record.guidPrefix
    rw [h, if_pos rfl] at hfind
    exact hfind.symm
  · intro h
    rw [after_eq_alter]
    exact OrderedMap.alter_of_eq h

/-- A roster takes over exactly the events that change it. -/
theorem isSome_after?_iff {r : Roster} {e : Event} :
    (r.after? e).isSome = true ↔ r.after e ≠ r := by
  constructor
  · intro hsome heq
    rw [after_eq_self_iff] at heq
    obtain ⟨change, record⟩ := e
    cases change <;> cases record <;>
      simp only [KnownParticipant.afterEvent, Record.guidPrefix] at heq <;>
      simp only [after?] at hsome
    case discovered.participant record =>
      have hendpoint : (r.find? record.guidPrefix).bind (·.endpoint) = some record.endpoint := by
        rw [← heq]
        rfl
      simp [hendpoint] at hsome
    case discovered.entity kind record =>
      cases hknown : r.find? record.guidPrefix with
      | none => simp [hknown] at heq
      | some known =>
          rw [hknown, Option.getD_some] at heq
          exact known.mapTally_ne (Tally.raise_ne _ _) (Option.some.inj heq)
    case removed.participant record =>
      have hnot : r.contains record.guidPrefix = false := by
        rw [OrderedMap.contains, ← heq]
        rfl
      simp [hnot] at hsome
    case removed.entity kind record =>
      cases hknown : r.find? record.guidPrefix with
      | none => simp [hknown] at hsome
      | some known =>
          rw [hknown, Option.map_some] at heq
          by_cases hkey : (known.tally kind).contains (.ofRecord record) = true
          · exact known.mapTally_ne (Tally.lower_ne hkey) (Option.some.inj heq)
          · simp [hknown, hkey] at hsome
  · intro hne
    by_contra hnone
    rw [Option.not_isSome_iff_eq_none] at hnone
    exact hne (by rw [after, hnone, Option.getD_none])

theorem isSome_after?_congr {r r' : Roster} {e : Event}
    (h : r.find? e.record.guidPrefix = r'.find? e.record.guidPrefix) :
    (r.after? e).isSome = (r'.after? e).isSome := by
  rw [Bool.eq_iff_iff, isSome_after?_iff, isSome_after?_iff, ne_eq, ne_eq, after_eq_self_iff,
    after_eq_self_iff, h]

/-- Events of different prefixes commute. -/
theorem after_comm {e e' : Event} (hne : e.record.guidPrefix ≠ e'.record.guidPrefix)
    (r : Roster) : (r.after e).after e' = (r.after e').after e := by
  simp only [after_eq_alter]
  exact OrderedMap.alter_comm hne r _ _

end Roster

/-! ## Versions -/

namespace Graph

variable {g g' : Graph}

theorem IsCurrent.latest_version (h : g.IsCurrent) : g.latest.version = g.version := by
  rw [h]
  rfl

/-- A graph is left as it was by an event that does not change its roster. -/
theorem apply_eq_self {e : Event} (h : (g.apply e).roster = g.roster) : g.apply e = g := by
  rw [roster_apply] at h
  refine apply_of_after?_eq_none ?_
  rw [← Option.not_isSome_iff_eq_none, Roster.isSome_after?_iff]
  exact not_not_intro h

theorem version_apply_of_ne {e : Event} (h : (g.apply e).roster ≠ g.roster) :
    (g.apply e).version = g.version + 1 := by
  rw [roster_apply, ← Roster.isSome_after?_iff] at h
  rw [version_apply, if_pos h]

theorem version_le_applyAll (g : Graph) (events : List Event) :
    g.version ≤ (g.applyAll events).version := by
  induction events generalizing g with
  | nil => exact Nat.le_refl _
  | cons e events ih =>
      have hfirst : g.version ≤ (g.apply e).version := by
        rw [version_apply]
        exact Nat.le_add_right _ _
      exact Nat.le_trans hfirst (ih _)

/-- While the version stays, the graph does. -/
theorem applyAll_eq_self {events : List Event} (h : (g.applyAll events).version = g.version) :
    g.applyAll events = g := by
  induction events generalizing g with
  | nil => rfl
  | cons e events ih =>
      rw [applyAll_cons] at h ⊢
      have hrest := version_le_applyAll (g.apply e) events
      have hsame : g.apply e = g := by
        by_cases hroster : (g.apply e).roster = g.roster
        · exact apply_eq_self hroster
        · have hnext := version_apply_of_ne hroster
          omega
      rw [hsame] at h ⊢
      exact ih h

theorem applyAll_take_eq (g : Graph) (events : List Event) {m n : Nat} (hle : m ≤ n)
    (h : (g.applyAll (events.take m)).version = (g.applyAll (events.take n)).version) :
    g.applyAll (events.take m) = g.applyAll (events.take n) := by
  have hsplit : events.take n = events.take m ++ (events.take n).drop m := by
    have hfront : (events.take n).take m = events.take m := by
      rw [List.take_take, Nat.min_eq_left hle]
    rw [← hfront, List.take_append_drop]
  rw [hsplit, applyAll_append] at h ⊢
  exact (applyAll_eq_self h.symm).symm

/-! ## Interleavings -/

theorem IsCurrent.ext (h : g.IsCurrent) (h' : g'.IsCurrent)
    (hinternals : g.includeInternals = g'.includeInternals) (hversion : g.version = g'.version)
    (hroster : g.roster = g'.roster) : g = g' := by
  have hlatest : g.latest = g'.latest := by rw [h, h', hinternals, hversion, hroster]
  cases g
  cases g'
  simp only [Graph.mk.injEq]
  exact ⟨hinternals, hversion, hroster, hlatest⟩

theorem version_apply_apply {e e' : Event} (hne : e.record.guidPrefix ≠ e'.record.guidPrefix)
    (g : Graph) : ((g.apply e).apply e').version = g.version +
      (if (g.roster.after? e).isSome then 1 else 0) +
      if (g.roster.after? e').isSome then 1 else 0 := by
  have hsame : (g.roster.after e).find? e'.record.guidPrefix =
      g.roster.find? e'.record.guidPrefix := by
    rw [Roster.find?_after, if_neg hne.symm]
  rw [version_apply, version_apply, roster_apply, Roster.isSome_after?_congr hsame]

theorem IsCurrent.apply_comm (h : g.IsCurrent) {e e' : Event}
    (hne : e.record.guidPrefix ≠ e'.record.guidPrefix) :
    (g.apply e).apply e' = (g.apply e').apply e := by
  refine ((h.apply e).apply e').ext ((h.apply e').apply e) ?_ ?_ ?_
  · simp only [includeInternals_apply]
  · rw [version_apply_apply hne, version_apply_apply hne.symm, Nat.add_right_comm]
  · simp only [roster_apply, Roster.after_comm hne]

end Graph

namespace History

def about (p : GuidPrefix) (events : List Event) : List Event :=
  events.filter fun e => decide (e.record.guidPrefix = p)

variable {p : GuidPrefix} {e : Event}

theorem about_append (p : GuidPrefix) (events events' : List Event) :
    about p (events ++ events') = about p events ++ about p events' := List.filter_append ..

theorem about_cons_of_eq (h : e.record.guidPrefix = p) (events : List Event) :
    about p (e :: events) = e :: about p events := List.filter_cons_of_pos (decide_eq_true h)

theorem about_cons_of_ne (h : e.record.guidPrefix ≠ p) (events : List Event) :
    about p (e :: events) = about p events := List.filter_cons_of_neg (by simpa using h)

theorem about_eq_nil {events : List Event} (h : ∀ e ∈ events, e.record.guidPrefix ≠ p) :
    about p events = [] := List.filter_eq_nil_iff.2 fun e he => by simpa using h e he

/-- Events of different prefixes may change places. -/
theorem about_swap {e' : Event} (hne : e.record.guidPrefix ≠ e'.record.guidPrefix)
    (events : List Event) : about p (e :: e' :: events) = about p (e' :: e :: events) := by
  by_cases h : e.record.guidPrefix = p
  · have h' : e'.record.guidPrefix ≠ p := fun heq => hne (h.trans heq.symm)
    rw [about_cons_of_eq h, about_cons_of_ne h', about_cons_of_ne h', about_cons_of_eq h]
  · by_cases h' : e'.record.guidPrefix = p
    · rw [about_cons_of_ne h, about_cons_of_eq h', about_cons_of_eq h', about_cons_of_ne h]
    · rw [about_cons_of_ne h, about_cons_of_ne h', about_cons_of_ne h', about_cons_of_ne h]

/-- The first event about a prefix is the first of all but for events about others. -/
theorem about_eq_cons {events rest : List Event} (h : about p events = e :: rest) :
    ∃ front back, events = front ++ e :: back ∧ (∀ e' ∈ front, e'.record.guidPrefix ≠ p) ∧
      about p back = rest := by
  obtain ⟨front, back, hsplit, hfront, _, hback⟩ := List.filter_eq_cons_iff.1 h
  exact ⟨front, back, hsplit, fun e' he' heq => hfront e' he' (decide_eq_true heq), hback⟩

end History

namespace Graph

open History

variable {g : Graph}

/-- An event can be moved in front of events of other prefixes. -/
theorem IsCurrent.applyAll_move (h : g.IsCurrent) {front : List Event} {e : Event}
    (hfront : ∀ e' ∈ front, e'.record.guidPrefix ≠ e.record.guidPrefix) (back : List Event) :
    g.applyAll (front ++ e :: back) = g.applyAll (e :: (front ++ back)) := by
  induction front generalizing g with
  | nil => rfl
  | cons e' front ih =>
      have hne := hfront e' List.mem_cons_self
      have hrest := fun e'' he'' => hfront e'' (List.mem_cons_of_mem _ he'')
      calc g.applyAll (e' :: front ++ e :: back)
          = (g.apply e').applyAll (e :: (front ++ back)) := ih (h.apply e') hrest
        _ = (g.apply e).applyAll (e' :: (front ++ back)) := by
            rw [applyAll_cons, applyAll_cons, h.apply_comm hne]

/-- What a graph becomes is told by the events of each prefix, in whatever order the prefixes
take turns. -/
theorem IsCurrent.applyAll_congr (h : g.IsCurrent) {events events' : List Event}
    (hsame : ∀ p, about p events = about p events') :
    g.applyAll events = g.applyAll events' := by
  induction events generalizing g events' with
  | nil =>
      have hnone : events' = [] := by
        refine List.eq_nil_iff_forall_not_mem.2 fun e he => ?_
        have hmem : e ∈ about e.record.guidPrefix events' :=
          List.mem_filter.2 ⟨he, decide_eq_true rfl⟩
        rw [← hsame] at hmem
        cases hmem
      rw [hnone]
  | cons e events ih =>
      have hown := hsame e.record.guidPrefix
      rw [about_cons_of_eq rfl] at hown
      obtain ⟨front, back, rfl, hfront, hback⟩ := about_eq_cons hown.symm
      rw [h.applyAll_move hfront, applyAll_cons, applyAll_cons]
      refine ih (h.apply e) fun p => ?_
      by_cases hp : e.record.guidPrefix = p
      · subst hp
        rw [about_append, about_eq_nil hfront, hback, List.nil_append]
      · have hother := hsame p
        rwa [about_append, about_cons_of_ne hp, about_cons_of_ne hp, ← about_append] at hother

/-- Whatever is discovered and removed, the snapshot published last is the one of what is known,
and each event either changes what is known, internal topics included, and raises the version by
one, or leaves the graph as it was. So one version of a run is one snapshot, and lists with the
same events of each prefix in the same order end with the same snapshot. -/
theorem version_counts_changes (includeInternals : Bool) (events : List Event) :
    (ofEvents includeInternals events).latest =
        .ofRoster includeInternals (ofEvents includeInternals events).version
          (ofEvents includeInternals events).roster ∧
      (∀ e,
        (ofEvents includeInternals (events ++ [e])).roster ≠
            (ofEvents includeInternals events).roster ∧
          (ofEvents includeInternals (events ++ [e])).latest.version =
            (ofEvents includeInternals events).latest.version + 1 ∨
        ofEvents includeInternals (events ++ [e]) = ofEvents includeInternals events) ∧
      (∀ m n,
        (ofEvents includeInternals (events.take m)).latest.version =
            (ofEvents includeInternals (events.take n)).latest.version →
          (ofEvents includeInternals (events.take m)).latest =
            (ofEvents includeInternals (events.take n)).latest) ∧
      ∀ events', (∀ p, about p events = about p events') →
        (ofEvents includeInternals events).latest =
          (ofEvents includeInternals events').latest := by
  have hcurrent := isCurrent_ofEvents includeInternals
  refine ⟨?_, fun e => ?_, fun m n h => ?_, fun events' h => ?_⟩
  · have hlatest : (ofEvents includeInternals events).latest = _ := hcurrent events
    rwa [includeInternals_ofEvents] at hlatest
  · rw [(hcurrent _).latest_version, (hcurrent _).latest_version, ofEvents_append]
    by_cases h : ((ofEvents includeInternals events).apply e).roster =
        (ofEvents includeInternals events).roster
    · exact .inr (apply_eq_self h)
    · exact .inl ⟨h, version_apply_of_ne h⟩
  · rw [(hcurrent _).latest_version, (hcurrent _).latest_version] at h
    rcases Nat.le_total m n with hle | hle
    · exact congrArg latest (applyAll_take_eq _ _ hle h)
    · exact congrArg latest (applyAll_take_eq _ _ hle h.symm).symm
  · exact congrArg latest ((isCurrent_new includeInternals).applyAll_congr h)

/-- A participant with a reader, and a writer on an internal topic of somebody else. -/
def arrival : Event := ⟨.discovered, .participant ⟨⟨1⟩, ⟨.replicate 12 1⟩, .shm⟩⟩

def listening : Event := ⟨.discovered,
  .entity .reader ⟨.ofString "rt/chatter", .ofString "String", ⟨.replicate 12 1⟩, .shm⟩⟩

def logging : Event := ⟨.discovered,
  .entity .writer ⟨.ofString "rt/rosout", .ofString "Log", ⟨.replicate 12 2⟩, .shm⟩⟩

/-- The writer counts as a change although it is not shown, and may come at any time. -/
theorem version_of_interleaved :
    (∀ p, about p [arrival, logging, listening] = about p [logging, arrival, listening]) ∧
      (ofEvents false [arrival, logging, listening]).latest =
        (ofEvents false [logging, arrival, listening]).latest ∧
      (ofEvents false [logging, arrival, listening]).latest.version = 3 := by
  have hne : arrival.record.guidPrefix ≠ logging.record.guidPrefix := by decide
  have hsame : ∀ p, about p [arrival, logging, listening] =
      about p [logging, arrival, listening] := fun _ => about_swap hne _
  refine ⟨hsame, (version_counts_changes false _).2.2.2 _ hsame, ?_⟩
  decide +kernel

end Graph
end Rendezvous
