import Mathlib
import Rendezvous.Proofs.Recollection

/-!
# Snapshots as retellings of a history

What a snapshot has to show can be said of the list of events alone. Main statement: the
snapshot published last is the one that retells all events so far, and no other snapshot
does.
-/

namespace Rendezvous

open Std History

/-- Whether counts are those of the visible keys, without the zeros and in the order of the
keys. -/
structure Counts (includeInternals : Bool) (count : TopicKey → Nat) (counts : List EntityCount) :
    Prop where
  ordered : counts.Pairwise fun a b => compare a.key b.key = .lt
  mem_iff : ∀ key n, ⟨key, n⟩ ∈ counts ↔
    key.isVisible includeInternals = true ∧ 0 < n ∧ n = count key

structure ParticipantView.Retells (includeInternals : Bool) (events : List Event)
    (v : ParticipantView) : Prop where
  endpoint : v.endpoint = endpointOf events v.guidPrefix
  readers : Counts includeInternals (countOf events v.guidPrefix .reader) v.readers
  writers : Counts includeInternals (countOf events v.guidPrefix .writer) v.writers

def ParticipantView.Lists (v : ParticipantView) (key : TopicKey) : Prop :=
  key ∈ v.readers.map (·.key) ∨ key ∈ v.writers.map (·.key)

/-- Whether a snapshot shows what a list of events has to tell. -/
structure Snapshot.Retells (includeInternals : Bool) (events : List Event) (s : Snapshot) :
    Prop where
  version : s.version = newsAfter [] events
  participants_ordered :
    s.participants.Pairwise fun v w => compare v.guidPrefix w.guidPrefix = .lt
  listed : ∀ p, p ∈ s.participants.map (·.guidPrefix) ↔ IsListed events p
  participants : ∀ v ∈ s.participants, v.Retells includeInternals events
  topics_ordered : s.topics.Pairwise fun t u => compare t.key u.key = .lt
  topics_listed : ∀ key, key ∈ s.topics.map (·.key) ↔ ∃ v ∈ s.participants, v.Lists key
  publishers : ∀ t ∈ s.topics, t.publishers =
    (s.participants.map fun v => countOf events v.guidPrefix .writer t.key).sum
  subscribers : ∀ t ∈ s.topics, t.subscribers =
    (s.participants.map fun v => countOf events v.guidPrefix .reader t.key).sum

/-! ## Ordered lists -/

/-- Lists in strict order of some key are equal once they have the same members. -/
theorem eq_of_ordered {α κ : Type} [Ord κ] [TransOrd κ] {key : α → κ} {xs ys : List α}
    (hx : xs.Pairwise fun a b => compare (key a) (key b) = .lt)
    (hy : ys.Pairwise fun a b => compare (key a) (key b) = .lt)
    (hmem : ∀ a, a ∈ xs ↔ a ∈ ys) : xs = ys := by
  have hinj : Function.Injective fun a => (key a, a) := fun a b h => congrArg Prod.snd h
  refine List.map_injective_iff.2 hinj (OrderedMap.entries_eq_of_mem_iff
    (List.pairwise_map.2 hx) (List.pairwise_map.2 hy) fun e => ?_)
  simp only [List.mem_map, hmem]

theorem eq_of_mem_of_ordered {α κ : Type} [Ord κ] [TransOrd κ] {key : α → κ} {xs : List α}
    (h : xs.Pairwise fun a b => compare (key a) (key b) = .lt) {a b : α} (ha : a ∈ xs)
    (hb : b ∈ xs) (hkey : key a = key b) : a = b := by
  induction xs with
  | nil => cases ha
  | cons x xs ih =>
      obtain ⟨hhead, hrest⟩ := List.pairwise_cons.1 h
      have hself : ∀ y ∈ xs, key y ≠ key x := fun y hy heq => by
        have hlt := hhead y hy
        rw [heq] at hlt
        simp at hlt
      rcases List.mem_cons.1 ha with rfl | ha'
      · rcases List.mem_cons.1 hb with rfl | hb'
        · rfl
        · exact absurd hkey.symm (hself b hb')
      · rcases List.mem_cons.1 hb with rfl | hb'
        · exact absurd hkey (hself a ha')
        · exact ih hrest ha' hb'

/-! ## Counts -/

theorem Tally.counts_view (includeInternals : Bool) {t : Tally} {count : TopicKey → Nat}
    (h : ∀ key, t.find? key = positive? (count key)) :
    Counts includeInternals count (t.view includeInternals) where
  ordered := List.pairwise_map.2 (t.ordered.filter _)
  mem_iff key n := by
    have hmem : (⟨key, n⟩ : EntityCount) ∈ t.view includeInternals ↔
        (key, n) ∈ t.visible includeInternals := by
      simp [view]
    rw [hmem, visible, List.mem_filter, ← OrderedMap.find?_eq_some_iff, h, positive?_eq_some_iff]
    exact and_comm

namespace EntityCount

def under (key : TopicKey) (cs : List EntityCount) : Nat :=
  (cs.map fun c => if c.key = key then c.count else 0).sum

theorem under_cons (key : TopicKey) (c : EntityCount) (cs : List EntityCount) :
    under key (c :: cs) = (if c.key = key then c.count else 0) + under key cs := by
  rw [under, List.map_cons, List.sum_cons, ← under]

theorem under_eq_zero {key : TopicKey} {cs : List EntityCount} (h : ∀ c ∈ cs, c.key ≠ key) :
    under key cs = 0 := by
  refine List.sum_eq_zero fun n hn => ?_
  obtain ⟨c, hc, rfl⟩ := List.mem_map.1 hn
  exact if_neg (h c hc)

theorem under_eq_of_mem {c : EntityCount} {cs : List EntityCount}
    (h : cs.Pairwise fun a b => compare a.key b.key = .lt) (hc : c ∈ cs) :
    under c.key cs = c.count := by
  induction cs with
  | nil => cases hc
  | cons d cs ih =>
      obtain ⟨hhead, hrest⟩ := List.pairwise_cons.1 h
      rw [under_cons]
      by_cases hkey : d.key = c.key
      · have hsame : d = c := eq_of_mem_of_ordered h List.mem_cons_self hc hkey
        have hzero : under c.key cs = 0 := under_eq_zero fun b hb heq => by
          have hlt := hhead b hb
          rw [heq, hkey] at hlt
          simp at hlt
        rw [if_pos hkey, hzero, hsame, Nat.add_zero]
      · have htail : c ∈ cs := (List.mem_cons.1 hc).resolve_left fun heq => hkey (heq ▸ rfl)
        rw [if_neg hkey, ih hrest htail, Nat.zero_add]

end EntityCount

namespace Counts

variable {includeInternals : Bool} {count : TopicKey → Nat} {cs cs' : List EntityCount}

theorem unique (h : Counts includeInternals count cs) (h' : Counts includeInternals count cs') :
    cs = cs' :=
  eq_of_ordered h.ordered h'.ordered fun c => (h.mem_iff c.key c.count).trans
    (h'.mem_iff c.key c.count).symm

theorem isVisible (h : Counts includeInternals count cs) {key : TopicKey}
    (hkey : key ∈ cs.map (·.key)) : key.isVisible includeInternals = true := by
  obtain ⟨c, hc, rfl⟩ := List.mem_map.1 hkey
  exact ((h.mem_iff c.key c.count).1 hc).1

theorem under_eq (h : Counts includeInternals count cs) {key : TopicKey}
    (hkey : key.isVisible includeInternals = true) : EntityCount.under key cs = count key := by
  rcases Nat.eq_zero_or_pos (count key) with hzero | hpos
  · rw [hzero]
    refine EntityCount.under_eq_zero fun c hc heq => ?_
    obtain ⟨_, hcpos, hcount⟩ := (h.mem_iff c.key c.count).1 hc
    rw [heq, hzero] at hcount
    omega
  · exact EntityCount.under_eq_of_mem h.ordered ((h.mem_iff key (count key)).2 ⟨hkey, hpos, rfl⟩)

end Counts

/-! ## Topics -/

namespace TopicView

/-- Readers and writers are summed up alike, on different sides of the sums. -/
def amass (side : Nat →+ Nat × Nat) (sums : Sums) (cs : List EntityCount) : Sums :=
  cs.foldr (fun e sums => sums.alter e.key fun known => some (known.getD 0 + side e.count)) sums

theorem addReaders_eq_amass (sums : Sums) (readers : List EntityCount) :
    addReaders sums readers = amass (.inr Nat Nat) sums readers := rfl

theorem addWriters_eq_amass (sums : Sums) (writers : List EntityCount) :
    addWriters sums writers = amass (.inl Nat Nat) sums writers := rfl

theorem isSome_find?_amass (side : Nat →+ Nat × Nat) (sums : Sums) (cs : List EntityCount)
    (key : TopicKey) : ((amass side sums cs).find? key).isSome = true ↔
      (sums.find? key).isSome = true ∨ key ∈ cs.map (·.key) := by
  induction cs with
  | nil => simp [amass]
  | cons c cs ih =>
      rw [amass, List.foldr_cons, ← amass, OrderedMap.find?_alter]
      by_cases hkey : key = c.key
      · simp [hkey]
      · simp [hkey, ih]

theorem getD_find?_amass (side : Nat →+ Nat × Nat) (sums : Sums) (cs : List EntityCount)
    (key : TopicKey) : ((amass side sums cs).find? key).getD 0 =
      (sums.find? key).getD 0 + side (EntityCount.under key cs) := by
  induction cs with
  | nil => simp [amass, EntityCount.under]
  | cons c cs ih =>
      rw [amass, List.foldr_cons, ← amass, OrderedMap.find?_alter, EntityCount.under_cons,
        map_add]
      by_cases hkey : key = c.key
      · subst hkey
        rw [if_pos rfl, if_pos rfl, Option.getD_some, ih, add_assoc, add_comm (side c.count)]
      · rw [if_neg hkey, if_neg (Ne.symm hkey), ih, map_zero, zero_add]

def sumsOf (sums : Sums) (ps : List ParticipantView) : Sums :=
  ps.foldl (fun sums p => addWriters (addReaders sums p.readers) p.writers) sums

theorem isSome_find?_sumsOf (sums : Sums) (ps : List ParticipantView) (key : TopicKey) :
    ((sumsOf sums ps).find? key).isSome = true ↔
      (sums.find? key).isSome = true ∨ ∃ p ∈ ps, p.Lists key := by
  induction ps generalizing sums with
  | nil => simp [sumsOf]
  | cons p ps ih =>
      rw [sumsOf, List.foldl_cons, ← sumsOf, ih, addWriters_eq_amass, addReaders_eq_amass,
        isSome_find?_amass, isSome_find?_amass, List.exists_mem_cons_iff, or_assoc, or_assoc,
        ParticipantView.Lists, or_assoc]

theorem getD_find?_sumsOf (sums : Sums) (ps : List ParticipantView) (key : TopicKey) :
    ((sumsOf sums ps).find? key).getD 0 = (sums.find? key).getD 0 +
      ((ps.map fun p => EntityCount.under key p.writers).sum,
        (ps.map fun p => EntityCount.under key p.readers).sum) := by
  induction ps generalizing sums with
  | nil => exact (add_zero _).symm
  | cons p ps ih =>
      rw [sumsOf, List.foldl_cons, ← sumsOf, ih, addWriters_eq_amass, addReaders_eq_amass,
        getD_find?_amass, getD_find?_amass, List.map_cons, List.map_cons, List.sum_cons,
        List.sum_cons]
      ext <;> simp [add_assoc]

/-- A topic is shown if some participant has a reader or writer on it, and then with all of
them. -/
theorem mem_ofParticipants {ps : List ParticipantView} {t : TopicView} :
    t ∈ ofParticipants ps ↔ (∃ p ∈ ps, p.Lists t.key) ∧
      t.publishers = (ps.map fun p => EntityCount.under t.key p.writers).sum ∧
      t.subscribers = (ps.map fun p => EntityCount.under t.key p.readers).sum := by
  have hlisted := isSome_find?_sumsOf .empty ps t.key
  have hsums := getD_find?_sumsOf .empty ps t.key
  have hmem : t ∈ ofParticipants ps ↔
      (sumsOf .empty ps).find? t.key = some (t.publishers, t.subscribers) := by
    rw [OrderedMap.find?_eq_some_iff]
    refine List.mem_map.trans ⟨?_, fun h => ⟨_, h, rfl⟩⟩
    rintro ⟨e, he, rfl⟩
    exact he
  simp only [OrderedMap.find?_empty, Option.isSome_none, Bool.false_eq_true, false_or,
    Option.getD_none, zero_add] at hlisted hsums
  rw [hmem, ← hlisted]
  cases hfind : (sumsOf .empty ps).find? t.key with
  | none => simp
  | some sum =>
      rw [hfind, Option.getD_some] at hsums
      simp [hsums, eq_comm]

theorem ordered_ofParticipants (ps : List ParticipantView) :
    (ofParticipants ps).Pairwise fun t u => compare t.key u.key = .lt :=
  List.pairwise_map.2 (sumsOf .empty ps).ordered

theorem mem_keys_ofParticipants {ps : List ParticipantView} {key : TopicKey} :
    key ∈ (ofParticipants ps).map (·.key) ↔ ∃ p ∈ ps, p.Lists key := by
  rw [List.mem_map]
  constructor
  · rintro ⟨t, ht, rfl⟩
    exact (mem_ofParticipants.1 ht).1
  · intro h
    let t : TopicView := ⟨key, (ps.map fun p => EntityCount.under key p.writers).sum,
      (ps.map fun p => EntityCount.under key p.readers).sum⟩
    exact ⟨t, mem_ofParticipants.2 ⟨h, rfl, rfl⟩, rfl⟩

end TopicView

/-! ## Retellings -/

theorem KnownParticipant.retells_view {known : KnownParticipant} {events : List Event}
    {p : GuidPrefix} (h : Recalls (some known) (since p events)) (includeInternals : Bool) :
    (known.view includeInternals p).Retells includeInternals events where
  endpoint := h.endpoint
  readers := Tally.counts_view includeInternals (h.count .reader)
  writers := Tally.counts_view includeInternals (h.count .writer)

section Retells

variable {includeInternals : Bool} {events : List Event}

theorem ParticipantView.Retells.isVisible {v : ParticipantView}
    (h : v.Retells includeInternals events) {key : TopicKey} (hkey : v.Lists key) :
    key.isVisible includeInternals = true :=
  hkey.elim h.readers.isVisible h.writers.isVisible

theorem ParticipantView.Retells.unique {v w : ParticipantView}
    (hv : v.Retells includeInternals events) (hw : w.Retells includeInternals events)
    (hsame : v.guidPrefix = w.guidPrefix) : v = w := by
  have hendpoint := hw.endpoint
  have hreaders := hw.readers
  have hwriters := hw.writers
  rw [← hsame] at hendpoint hreaders hwriters
  cases v
  cases w
  simp only [ParticipantView.mk.injEq]
  exact ⟨hsame, hv.endpoint.trans hendpoint.symm, hv.readers.unique hreaders,
    hv.writers.unique hwriters⟩

/-- The snapshot of a roster that knows what its history has to tell retells that history. -/
theorem Roster.Recalls.retells {r : Roster} (h : r.Recalls events) :
    (Snapshot.ofRoster includeInternals (newsAfter [] events) r).Retells includeInternals
      events := by
  have hmem : ∀ v, v ∈ r.view includeInternals ↔
      ∃ p known, r.find? p = some known ∧ known.view includeInternals p = v := by
    intro v
    simp [Roster.view, OrderedMap.find?_eq_some_iff]
  have hretells : ∀ v ∈ r.view includeInternals, v.Retells includeInternals events := by
    intro v hv
    obtain ⟨p, known, hfind, rfl⟩ := (hmem v).1 hv
    exact KnownParticipant.retells_view (hfind ▸ h p) includeInternals
  -- A key that somebody lists is visible, so that nothing is left out of its sums.
  have hunder : ∀ {key}, (∃ p ∈ r.view includeInternals, p.Lists key) →
      ∀ v ∈ r.view includeInternals,
        EntityCount.under key v.writers = countOf events v.guidPrefix .writer key ∧
        EntityCount.under key v.readers = countOf events v.guidPrefix .reader key := by
    rintro key ⟨p, hp, hkey⟩ v hv
    have hvisible := (hretells p hp).isVisible hkey
    exact ⟨(hretells v hv).writers.under_eq hvisible, (hretells v hv).readers.under_eq hvisible⟩
  refine ⟨rfl, List.pairwise_map.2 r.ordered, fun p => ?_, hretells,
    TopicView.ordered_ofParticipants _, fun key => TopicView.mem_keys_ofParticipants,
    fun t ht => ?_, fun t ht => ?_⟩
  · rw [IsListed, ← (h p).listed, Option.isSome_iff_exists, List.mem_map]
    constructor
    · rintro ⟨v, hv, rfl⟩
      obtain ⟨p, known, hfind, rfl⟩ := (hmem v).1 hv
      exact ⟨known, hfind⟩
    · rintro ⟨known, hfind⟩
      exact ⟨_, (hmem _).2 ⟨p, known, hfind, rfl⟩, rfl⟩
  · obtain ⟨hlisted, hpublishers, _⟩ := TopicView.mem_ofParticipants.1 ht
    exact hpublishers.trans (congrArg List.sum
      (List.map_congr_left fun v hv => (hunder hlisted v hv).1))
  · obtain ⟨hlisted, _, hsubscribers⟩ := TopicView.mem_ofParticipants.1 ht
    exact hsubscribers.trans (congrArg List.sum
      (List.map_congr_left fun v hv => (hunder hlisted v hv).2))

namespace Snapshot.Retells

variable {s s' : Snapshot}

theorem mem_participants (h : s.Retells includeInternals events) (v : ParticipantView) :
    v ∈ s.participants ↔ IsListed events v.guidPrefix ∧ v.Retells includeInternals events := by
  constructor
  · intro hv
    exact ⟨(h.listed _).1 (List.mem_map_of_mem hv), h.participants v hv⟩
  · rintro ⟨hlisted, hv⟩
    obtain ⟨w, hw, hsame⟩ := List.mem_map.1 ((h.listed _).2 hlisted)
    rwa [← (h.participants w hw).unique hv hsame]

theorem mem_topics (h : s.Retells includeInternals events) (t : TopicView) :
    t ∈ s.topics ↔ (∃ v ∈ s.participants, v.Lists t.key) ∧
      t.publishers =
        (s.participants.map fun v => countOf events v.guidPrefix .writer t.key).sum ∧
      t.subscribers =
        (s.participants.map fun v => countOf events v.guidPrefix .reader t.key).sum := by
  constructor
  · intro ht
    exact ⟨(h.topics_listed _).1 (List.mem_map_of_mem ht), h.publishers t ht,
      h.subscribers t ht⟩
  · rintro ⟨hlisted, hpublishers, hsubscribers⟩
    obtain ⟨u, hu, hkey⟩ := List.mem_map.1 ((h.topics_listed _).2 hlisted)
    have hsame : u = t := by
      have hpub := h.publishers u hu
      have hsub := h.subscribers u hu
      rw [hkey] at hpub hsub
      cases u
      cases t
      simp_all
    exact hsame ▸ hu

theorem unique (h : s.Retells includeInternals events) (h' : s'.Retells includeInternals events) :
    s = s' := by
  have hparticipants : s.participants = s'.participants :=
    eq_of_ordered h.participants_ordered h'.participants_ordered fun v =>
      (h.mem_participants v).trans (h'.mem_participants v).symm
  have htopics : s.topics = s'.topics := by
    refine eq_of_ordered h.topics_ordered h'.topics_ordered fun t => ?_
    rw [h.mem_topics, h'.mem_topics, hparticipants]
  cases s
  cases s'
  simp only [Snapshot.mk.injEq]
  exact ⟨h.version.trans h'.version.symm, hparticipants, htopics⟩

end Snapshot.Retells

end Retells

theorem Graph.Recalls.retells {g : Graph} {events : List Event} (h : g.Recalls events) :
    g.latest.Retells g.includeInternals events := by
  rw [h.current, h.version]
  exact h.roster.retells

/-- Whatever is discovered and removed in whatever order, the snapshot published last is the one
that retells it. -/
theorem Graph.latest_eq_iff_retells (includeInternals : Bool) (events : List Event)
    (s : Snapshot) : ((new includeInternals).applyAll events).latest = s ↔
      s.Retells includeInternals events := by
  have hlatest : ((new includeInternals).applyAll events).latest.Retells includeInternals
      events := by
    have h := ((recalls_new includeInternals).applyAll events).retells
    rwa [includeInternals_applyAll] at h
  constructor
  · rintro rfl
    exact hlatest
  · exact hlatest.unique

end Rendezvous
