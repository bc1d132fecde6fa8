import Rendezvous.Graph

/-!
# Folding events into a graph

An event concerns one prefix, and what a roster knows under a prefix depends on the events
of that prefix alone. Counts under a key are what was raised less what was lowered, so a
tally is known by the keys that it was made of, in any order. The snapshot published last
is always the one of the present roster.
-/

namespace Rendezvous

namespace Tally

theorem find?_raise (t : Tally) (k k' : TopicKey) :
    (t.raise k).find? k' = if k' = k then some ((t.find? k).getD 0 + 1) else t.find? k' :=
  OrderedMap.find?_alter _ _ _ _

theorem find?_lower (t : Tally) (k k' : TopicKey) :
    (t.lower k).find? k' =
      if k' = k then (t.find? k).bind fun count => if count ≤ 1 then none else some (count - 1)
      else t.find? k' := by
  rw [lower, OrderedMap.find?_alter]
  split
  · cases t.find? k <;> rfl
  · rfl

theorem lower_of_find?_eq_none {t : Tally} {k : TopicKey} (h : t.find? k = none) :
    t.lower k = t := by
  refine OrderedMap.alter_of_eq ?_
  rw [h]

def ofKeys (keys : List TopicKey) : Tally := keys.foldl raise .empty

theorem ofKeys_append_key (keys : List TopicKey) (k : TopicKey) :
    ofKeys (keys ++ [k]) = (ofKeys keys).raise k := by
  simp [ofKeys, List.foldl_append]

theorem find?_foldl_raise (keys : List TopicKey) (t : Tally) (k : TopicKey) :
    (keys.foldl raise t).find? k =
      if keys.count k = 0 then t.find? k else some ((t.find? k).getD 0 + keys.count k) := by
  induction keys generalizing t with
  | nil => simp
  | cons k' keys ih =>
      rw [List.foldl_cons, ih, find?_raise, List.count_cons]
      by_cases hk : k = k'
      · subst hk
        simp only [if_true, BEq.rfl, Option.getD_some]
        split
        · rename_i hzero
          simp [hzero]
        · rw [if_neg (by omega), Nat.add_assoc, Nat.add_comm 1]
      · have hne : (k' == k) = false := by simpa using Ne.symm hk
        simp [hk, hne]

theorem find?_ofKeys (keys : List TopicKey) (k : TopicKey) :
    (ofKeys keys).find? k = if keys.count k = 0 then none else some (keys.count k) := by
  simp [ofKeys, find?_foldl_raise]

theorem ofKeys_congr {keys keys' : List TopicKey} (h : keys.Perm keys') :
    ofKeys keys = ofKeys keys' := by
  refine OrderedMap.ext_find? fun k => ?_
  rw [find?_ofKeys, find?_ofKeys, h.count_eq]

/-- An entry of the tally of a list: how often the key is in the list, if it is there at all. -/
theorem mem_entries_ofKeys {keys : List TopicKey} {k : TopicKey} {n : Nat} :
    (k, n) ∈ (ofKeys keys).entries ↔ 0 < n ∧ n = keys.count k := by
  rw [← OrderedMap.find?_eq_some_iff, find?_ofKeys]
  split <;> simp <;> omega

theorem lower_ofKeys {keys rest : List TopicKey} {k : TopicKey}
    (h : keys.Perm (k :: rest)) : (ofKeys keys).lower k = ofKeys rest := by
  refine OrderedMap.ext_find? fun k' => ?_
  have hcount := h.count_eq k'
  rw [find?_lower, find?_ofKeys, find?_ofKeys, find?_ofKeys]
  rw [List.count_cons] at hcount
  by_cases hk : k' = k
  · subst hk
    simp only [BEq.rfl, if_true] at hcount ⊢
    rw [hcount, if_neg (by omega)]
    by_cases hzero : rest.count k' = 0
    · simp [hzero]
    · rw [if_neg hzero]
      simp only [Option.bind_some]
      rw [if_neg (by omega), Nat.add_sub_cancel]
  · have hne : (k == k') = false := by simpa using Ne.symm hk
    simp only [hne, Bool.false_eq_true, if_false, Nat.add_zero] at hcount
    rw [if_neg hk, hcount]

end Tally

namespace KnownParticipant

theorem mapTally_self (p : KnownParticipant) (kind : EntityKind) {f : Tally → Tally}
    (h : f (p.tally kind) = p.tally kind) : p.mapTally kind f = p := by
  cases kind <;> cases p <;> simp_all [mapTally, tally]

def afterEvent (known : Option KnownParticipant) (e : Event) : Option KnownParticipant :=
  match e.change, e.record with
  | .discovered, .participant record =>
      some { known.getD .blank with endpoint := some record.endpoint }
  | .removed, .participant _ => none
  | .discovered, .entity kind record =>
      some ((known.getD .blank).mapTally kind (·.raise (.ofRecord record)))
  | .removed, .entity kind record =>
      known.map (·.mapTally kind (·.lower (.ofRecord record)))

end KnownParticipant

namespace Roster

def after (r : Roster) (e : Event) : Roster := (r.after? e).getD r

def afterAll (r : Roster) (events : List Event) : Roster := events.foldl after r

theorem afterAll_append (r : Roster) (es es' : List Event) :
    r.afterAll (es ++ es') = (r.afterAll es).afterAll es' := List.foldl_append

/-- An event alters what is known under its own prefix. -/
theorem after_eq_alter (r : Roster) (e : Event) :
    r.after e = r.alter e.record.guidPrefix (KnownParticipant.afterEvent · e) := by
  obtain ⟨change, record⟩ := e
  cases change <;> cases record <;> simp only [after, after?]
  case discovered.participant record =>
    split
    · rename_i hsame
      refine (OrderedMap.alter_of_eq ?_).symm
      simp only [KnownParticipant.afterEvent, Record.guidPrefix]
      cases hk : r.find? record.guidPrefix with
      | none => simp [hk] at hsame
      | some known =>
          simp only [hk, Option.bind_some] at hsame
          simp [← hsame, hk]
    · rfl
  case discovered.entity kind record => rfl
  case removed.participant record =>
    split
    · rfl
    · rename_i hnot
      exact (OrderedMap.alter_of_eq (OrderedMap.find?_eq_none_of_not_contains hnot).symm).symm
  case removed.entity kind record =>
    cases hk : r.find? record.guidPrefix with
    | none =>
        refine (OrderedMap.alter_of_eq ?_).symm
        simp [KnownParticipant.afterEvent, Record.guidPrefix, hk]
    | some known =>
        simp only
        split
        · refine OrderedMap.alter_congr ?_
          simp [KnownParticipant.afterEvent, hk]
        · rename_i hnot
          refine (OrderedMap.alter_of_eq ?_).symm
          have hlower := Tally.lower_of_find?_eq_none (OrderedMap.find?_eq_none_of_not_contains hnot)
          have hself := known.mapTally_self kind (f := (·.lower (.ofRecord record))) hlower
          simp [KnownParticipant.afterEvent, Record.guidPrefix, hk, hself]

theorem find?_after (r : Roster) (e : Event) (p : GuidPrefix) :
    (r.after e).find? p =
      if p = e.record.guidPrefix then KnownParticipant.afterEvent (r.find? p) e
      else r.find? p := by
  rw [after_eq_alter, OrderedMap.find?_alter]
  split
  · rename_i heq
    rw [heq]
  · rfl

/-- Events of one prefix change what is known under that prefix only. -/
theorem find?_afterAll_of_same {p : GuidPrefix} {events : List Event}
    (h : ∀ e ∈ events, e.record.guidPrefix = p) (r : Roster) (q : GuidPrefix) :
    (r.afterAll events).find? q =
      if q = p then events.foldl KnownParticipant.afterEvent (r.find? q) else r.find? q := by
  induction events generalizing r with
  | nil => simp [afterAll]
  | cons e events ih =>
      have hhead := h e List.mem_cons_self
      have hrest := fun e' he' => h e' (List.mem_cons_of_mem _ he')
      rw [afterAll, List.foldl_cons, ← afterAll, ih hrest, find?_after, hhead]
      split <;> rfl

end Roster

namespace Graph

/-- Whether the snapshot published last is the one of the present roster. -/
def IsCurrent (g : Graph) : Prop := g.latest = .ofRoster g.includeInternals g.version g.roster

theorem isCurrent_new (includeInternals : Bool) : (new includeInternals).IsCurrent := rfl

theorem apply_of_after?_eq_none {g : Graph} {e : Event} (h : g.roster.after? e = none) :
    g.apply e = g := by
  simp only [apply, h]

theorem apply_of_after?_eq_some {g : Graph} {e : Event} {r : Roster}
    (h : g.roster.after? e = some r) : g.apply e = g.publish r := by
  simp only [apply, h]

theorem roster_apply (g : Graph) (e : Event) : (g.apply e).roster = g.roster.after e := by
  cases h : g.roster.after? e with
  | none => rw [apply_of_after?_eq_none h, Roster.after, h, Option.getD_none]
  | some r =>
      rw [apply_of_after?_eq_some h, Roster.after, h, Option.getD_some]
      rfl

theorem version_apply (g : Graph) (e : Event) :
    (g.apply e).version = g.version + if (g.roster.after? e).isSome then 1 else 0 := by
  cases h : g.roster.after? e with
  | none => rw [apply_of_after?_eq_none h]; rfl
  | some r => rw [apply_of_after?_eq_some h]; rfl

theorem includeInternals_apply (g : Graph) (e : Event) :
    (g.apply e).includeInternals = g.includeInternals := by
  simp only [apply]
  split <;> rfl

theorem IsCurrent.apply {g : Graph} (h : g.IsCurrent) (e : Event) : (g.apply e).IsCurrent := by
  simp only [Graph.apply]
  split
  · exact h
  · rfl

theorem applyAll_cons (g : Graph) (e : Event) (events : List Event) :
    g.applyAll (e :: events) = (g.apply e).applyAll events := rfl

theorem applyAll_append (g : Graph) (events events' : List Event) :
    g.applyAll (events ++ events') = (g.applyAll events).applyAll events' := List.foldl_append

theorem roster_applyAll (g : Graph) (events : List Event) :
    (g.applyAll events).roster = g.roster.afterAll events := by
  induction events generalizing g with
  | nil => rfl
  | cons e events ih =>
      rw [applyAll_cons, ih, roster_apply]
      rfl

theorem includeInternals_applyAll (g : Graph) (events : List Event) :
    (g.applyAll events).includeInternals = g.includeInternals := by
  induction events generalizing g with
  | nil => rfl
  | cons e events ih => rw [applyAll_cons, ih, includeInternals_apply]

theorem IsCurrent.applyAll {g : Graph} (h : g.IsCurrent) (events : List Event) :
    (g.applyAll events).IsCurrent := by
  induction events generalizing g with
  | nil => exact h
  | cons e events ih => exact ih (h.apply e)

def ofEvents (includeInternals : Bool) (events : List Event) : Graph :=
  (new includeInternals).applyAll events

theorem isCurrent_ofEvents (includeInternals : Bool) (events : List Event) :
    (ofEvents includeInternals events).IsCurrent :=
  (isCurrent_new includeInternals).applyAll events

theorem includeInternals_ofEvents (includeInternals : Bool) (events : List Event) :
    (ofEvents includeInternals events).includeInternals = includeInternals :=
  includeInternals_applyAll _ _

theorem ofEvents_append (includeInternals : Bool) (events events' : List Event) :
    ofEvents includeInternals (events ++ events') =
      (ofEvents includeInternals events).applyAll events' := applyAll_append _ _ _

end Graph

end Rendezvous
