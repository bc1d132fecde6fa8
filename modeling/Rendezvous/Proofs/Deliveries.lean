import Rendezvous.Proofs.Departures
import Rendezvous.Proofs.Sparing

/-!
# Deliveries, once each and in order

What is put on its way to a participant is delivered to it once each, in the order in which
it was put there, until the participant is closed or deleted. From then on nothing is: what
was still on its way then is lost. Main statement: this is so along every run, whoever closes
or deletes whom, and whether listeners panic or not; and no handle is given out twice.
-/

namespace Rendezvous

def addressed (k : Handle) (ds : List Delivery) : List Delivery := ds.filter (·.target == k)

theorem addressed_append (k : Handle) (ds more : List Delivery) :
    addressed k (ds ++ more) = addressed k ds ++ addressed k more := List.filter_append ..

theorem addressed_cons_of_eq {k : Handle} {d : Delivery} (h : d.target = k)
    (ds : List Delivery) : addressed k (d :: ds) = d :: addressed k ds :=
  List.filter_cons_of_pos (by simpa using h)

theorem addressed_cons_of_ne {k : Handle} {d : Delivery} (h : d.target ≠ k)
    (ds : List Delivery) : addressed k (d :: ds) = addressed k ds :=
  List.filter_cons_of_neg (by simpa using h)

theorem addressed_eq_nil {k : Handle} {ds : List Delivery} (h : ∀ d ∈ ds, d.target ≠ k) :
    addressed k ds = [] :=
  List.filter_eq_nil_iff.2 fun d hd => by simpa using h d hd

/-! ## Who deliveries are put on their way to -/

namespace Fabric

/-- Whether deliveries are on their way only to those who listen, or are gone. -/
def Heeded (f : Fabric) : Prop :=
  ∀ d ∈ f.queue.toList, ∀ m, f.members.find? d.target = some m → m.listens = true

theorem heeded_empty : empty.Heeded := fun _ hd => absurd hd List.not_mem_nil

/-- What is on its way already goes to who listens, before and after a step. -/
theorem Heeded.of_isLater {f f' : Fabric} (h : f.Heeded) (hf : f.Sound) (hlater : f'.IsLater f)
    {d : Delivery} (hd : d ∈ f.queue.toList) {m : Member}
    (hm : f'.members.find? d.target = some m) : m.listens = true := by
  obtain ⟨was, hwas, hl⟩ := hlater.member (hf.target hd) hm
  rw [hl.listens]
  exact h d hd was hwas

theorem Heeded.join {f : Fabric} (h : f.Heeded) (hf : f.Sound) (domain : UInt32)
    (profile : Profile) (listens : Bool) : (f.join domain profile listens).1.Heeded := by
  have hlater := (Step.join f domain profile listens).isLater
  have hself := f.find?_join_nextHandle domain profile listens
  intro d hd m hm
  rw [queue_join, List.mem_append] at hd
  rcases hd with hd | hd
  · exact h.of_isLater hf hlater hd hm
  · obtain ⟨⟨k, other⟩, hmem, hd⟩ := List.mem_flatMap.1 hd
    obtain ⟨hother, _, _⟩ := mem_present.1 hmem
    rcases List.mem_append.1 hd with hd | hd
    · split at hd
      · rename_i hlistens
        obtain ⟨n, _, rfl⟩ := List.mem_map.1 hd
        rw [hself] at hm
        cases hm
        exact hlistens
      · cases hd
    · split at hd
      · rename_i hlistens
        cases List.mem_singleton.1 hd
        obtain ⟨was, hwas, hl⟩ := hlater.member (hf.member hother) hm
        rw [hother] at hwas
        cases hwas
        exact hl.listens.trans hlistens
      · cases hd

theorem Heeded.change {f : Fabric} (h : f.Heeded) (hf : f.Sound) {k : Handle} {m : Member}
    {after : Option Member} {ns : List Notification} (hm : f.members.find? k = some m)
    (hc : m.Change k after ns) : (f.change k m after ns).Heeded := by
  intro d hd m' hm'
  rw [queue_change, List.mem_append] at hd
  rcases hd with hd | hd
  · exact h.of_isLater hf (Step.change hm hc).isLater hd hm'
  · split at hd
    · obtain ⟨target, htarget, hd⟩ := List.mem_flatMap.1 hd
      obtain ⟨n, _, rfl⟩ := List.mem_map.1 hd
      obtain ⟨_, was, hwas, _, _, hlistens⟩ := mem_audience.1 htarget
      rw [hm'] at hwas
      cases hwas
      exact hlistens
    · cases hd

theorem Step.heeded {f f' : Fabric} (h : Step f f') (hf : f.Sound) (hheeded : f.Heeded) :
    f'.Heeded := by
  cases h with
  | stay => exact hheeded
  | configure => exact hheeded
  | join domain profile listens => exact hheeded.join hf domain profile listens
  | change hm hc => exact hheeded.change hf hm hc
  | take hn =>
      obtain ⟨hqueue, heq⟩ := next?_eq_some hn
      intro d hd m hm
      rw [heq] at hm
      exact hheeded d (hqueue ▸ List.mem_cons_of_mem _ hd) m hm

end Fabric

/-! ## Handles that were given out -/

def Sighting.joined? : Sighting → Option Handle
  | .noticed (.participantJoined k _ _) => some k
  | _ => none

namespace Site

def handles (s : Site) : List Handle := s.journal.filterMap (·.joined?)

theorem handles_note_of_none {s : Site} {x : Sighting} (hx : x.joined? = none) :
    (s.note x).handles = s.handles := filterMap_journal_note_of_none s hx

theorem handles_noteJoined (s : Site) (k : Handle) (profile : Profile) (domain : UInt32) :
    (s.noteJoined k profile domain).handles = s.handles ++ [k] :=
  filterMap_journal_note Sighting.joined? s _

theorem handles_takeIn (s : Site) (h : Handle) (l : Listener) (n : Notification) :
    (s.takeIn h l n).handles = s.handles := by
  apply filterMap_journal_takeIn (fun _ _ _ => rfl)
  intro h call
  unfold sighting
  split <;> rfl

/-- What a move does with handles: it gives out none, or the next one, to who takes part from
then on. -/
inductive Issues (s s' : Site) : Prop
  | none (hsame : s'.handles = s.handles)
      (hnext : s'.fabric.nextHandle = s.fabric.nextHandle)
  | next (hnew : s'.handles = s.handles ++ [s.fabric.nextHandle])
      (hnext : s'.fabric.nextHandle = s.fabric.nextHandle.next)
      (hen : s'.fabric.isEnabled s.fabric.nextHandle = true)

section Moves

variable {s s' : Site} {k : Handle}

theorem isEnabled_join_nextHandle (f : Fabric) (domain : UInt32) (profile : Profile)
    (listens : Bool) : (f.join domain profile listens).1.isEnabled f.nextHandle = true :=
  Fabric.isEnabled_iff.2 ⟨_, f.find?_join_nextHandle domain profile listens, rfl⟩

theorem nextHandle_performs {deed : Deed} {f f' : Fabric} (h : f.Performs k deed f') :
    f'.nextHandle = f.nextHandle := by
  obtain ⟨m, after, ns, _, _, rfl, _⟩ := h.change
  exact Fabric.nextHandle_change _ _ _ _ _

theorem Step.issues (h : Step s s') : s.Issues s' := by
  cases h with
  | join domain profile =>
      exact .next (handles_noteJoined _ _ _ _) rfl (isEnabled_join_nextHandle _ _ _ _)
  | create domain profile =>
      cases hf : s.fabric.failNextCreate with
      | true =>
          rw [create_of_refused hf]
          exact .none rfl rfl
      | false =>
          rw [create_of_accepted hf]
          exact .next (handles_noteJoined _ _ _ _) rfl (isEnabled_join_nextHandle _ _ _ _)
  | close k =>
      unfold Site.close
      split
      · rename_i hen
        exact .none (handles_note_of_none rfl) (nextHandle_performs (.close hen))
      · exact .none rfl rfl
  | delete k =>
      unfold Site.delete
      split
      · rename_i hd
        exact .none (handles_note_of_none rfl) (nextHandle_performs (.delete hd))
      · exact .none rfl rfl
  | announce h => exact .none rfl (nextHandle_performs (.announce h))
  | withdraw h =>
      obtain ⟨m, e, hm, he, _⟩ := Fabric.removeEntity_eq_ok h
      exact .none rfl (nextHandle_performs (.withdraw hm he h))
  | changeQos h => exact .none rfl (nextHandle_performs (.changeQos h))
  | configure => exact .none rfl rfl
  | lose hn =>
      rw [(Fabric.next?_eq_some hn).2]
      exact .none rfl rfl
  | hear hn =>
      refine .none ?_ ?_
      · rw [handles_takeIn]
        exact handles_note_of_none rfl
      · rw [fabric_takeIn, (Fabric.next?_eq_some hn).2]
        rfl
  | settle => exact .none rfl rfl
  | remark hx =>
      refine .none (handles_note_of_none ?_) rfl
      cases hx <;> rfl

theorem Move.issues (h : Move s s') : s.Issues s' := by
  cases h with
  | step h => exact h.issues
  | keep => exact .none rfl rfl
  | tell h =>
      refine .none (handles_note_of_none ?_) rfl
      cases h <;> rfl

/-- Whether the handles given out are numbered in their order, from one on, and the next one is
the one that follows. -/
structure Numbered (s : Site) : Prop where
  handles : s.handles = (List.range' 1 s.handles.length).map Handle.mk
  next : s.fabric.nextHandle = ⟨s.handles.length + 1⟩

theorem numbered_new (storage : Storage) (processes : ProcessTable) :
    (new storage processes).Numbered := ⟨rfl, rfl⟩

theorem Move.numbered (h : Move s s') (hs : s.Numbered) : s'.Numbered := by
  cases h.issues with
  | none hsame hnext =>
      exact ⟨by rw [hsame]; exact hs.handles, by rw [hnext, hsame]; exact hs.next⟩
  | next hnew hnext =>
      have hlength : s'.handles.length = s.handles.length + 1 := by
        rw [hnew, List.length_append, List.length_singleton]
      refine ⟨?_, ?_⟩
      · rw [hlength, List.range'_concat, List.map_append, ← hs.handles, hnew, hs.next, Nat.one_mul,
          Nat.add_comm 1]
        rfl
      · rw [hnext, hs.next, hlength]
        rfl

theorem Numbered.nodup (hs : s.Numbered) : s.handles.Nodup := by
  have hinjective : Function.Injective Handle.mk := fun _ _ heq => Handle.mk.inj heq
  rw [hs.handles]
  exact List.Nodup.map hinjective List.nodup_range'

theorem Numbered.mem_handles (hs : s.Numbered) :
    k ∈ s.handles ↔ 1 ≤ k.number ∧ s.fabric.Issued k := by
  rw [hs.handles, Fabric.Issued, hs.next]
  simp only [List.mem_map, List.mem_range'_1]
  constructor
  · rintro ⟨n, hn, rfl⟩
    exact ⟨hn.1, by simpa [Nat.add_comm] using hn.2⟩
  · rintro ⟨hpos, hless⟩
    exact ⟨k.number, ⟨hpos, by simpa [Nat.add_comm] using hless⟩, rfl⟩

/-- Who is given a handle takes part from then on. -/
theorem Move.isEnabled_of_issued (h : Move s s') (hbefore : ¬ s.fabric.Issued k)
    (hafter : s'.fabric.Issued k) : s'.fabric.isEnabled k = true := by
  cases h.issues with
  | none _ hnext =>
      rw [Fabric.Issued, hnext] at hafter
      exact absurd hafter hbefore
  | next _ hnext hen =>
      have hk : k = s.fabric.nextHandle := by
        rw [Fabric.Issued, hnext] at hafter
        exact congrArg Handle.mk (Nat.le_antisymm (Nat.lt_succ_iff.1 hafter) (Nat.not_lt.1 hbefore))
      rw [hk]
      exact hen

/-! ## Leaving -/

inductive Tells (k : Handle) : Sighting → Prop
  | closed : Tells k (.noticed (.participantClosed k))
  | deleted : Tells k (.noticed (.participantDeleted k))

structure Leaves (k : Handle) (s s' : Site) : Prop where
  was : s.fabric.isEnabled k = true
  gone : s'.fabric.isEnabled k = false
  move : Move s s'
  told : ∃ x, Tells k x ∧ s'.journal = s.journal ++ [x]

/-- Nothing takes a participant from its domain but its own close or deletion. -/
theorem Step.leaves (h : Step s s') (hwas : s.fabric.isEnabled k = true)
    (hgone : s'.fabric.isEnabled k = false) :
    ∃ x, Tells k x ∧ s'.journal = s.journal ++ [x] := by
  have hperforms : ∀ {k' : Handle} {deed : Deed} {f : Fabric}, s.fabric.Performs k' deed f →
      f.isEnabled k = false → k = k' ∧ (deed = .close ∨ deed = .delete) := by
    intro k' deed f hp hnot
    by_contra hspares
    have hstill := hp.isEnabled hwas fun hk =>
      ⟨fun hclose => hspares ⟨hk, .inl hclose⟩, fun hdelete => hspares ⟨hk, .inr hdelete⟩⟩
    rw [hnot] at hstill
    cases hstill
  have hsame : s'.fabric.isEnabled k ≠ s.fabric.isEnabled k := by
    rw [hwas, hgone]
    exact Bool.false_ne_true
  cases h with
  | join domain profile =>
      have hstill := Fabric.isEnabled_join hwas domain profile false
      exact absurd (hstill.symm.trans hgone) (by decide)
  | create domain profile =>
      cases hf : s.fabric.failNextCreate with
      | true =>
          rw [create_of_refused hf] at hsame
          exact absurd rfl hsame
      | false =>
          rw [create_of_accepted hf] at hgone
          have hstill := Fabric.isEnabled_join hwas domain profile true
          exact absurd (hstill.symm.trans hgone) (by decide)
  | close k' =>
      unfold Site.close at hgone hsame ⊢
      split at hgone
      · rename_i hen
        obtain ⟨rfl, _⟩ := hperforms (.close hen) hgone
        rw [if_pos hen]
        exact ⟨_, .closed, journal_note _ _⟩
      · exact absurd (hwas.symm.trans hgone) (by decide)
  | delete k' =>
      unfold Site.delete at hgone ⊢
      cases hd : s.fabric.delete k' with
      | error e =>
          rw [hd] at hgone
          exact absurd (hwas.symm.trans hgone) (by decide)
      | ok fabric =>
          rw [hd] at hgone
          obtain ⟨rfl, _⟩ := hperforms (.delete hd) hgone
          exact ⟨_, .deleted, journal_note _ _⟩
  | announce h => exact absurd (hperforms (.announce h) hgone).2 (by simp)
  | withdraw h =>
      obtain ⟨m, e, hm, he, _⟩ := Fabric.removeEntity_eq_ok h
      exact absurd (hperforms (.withdraw hm he h) hgone).2 (by simp)
  | changeQos h => exact absurd (hperforms (.changeQos h) hgone).2 (by simp)
  | configure => exact absurd rfl hsame
  | lose hn => exact absurd (Fabric.isEnabled_of_next? hn k) hsame
  | hear hn =>
      rw [fabric_takeIn] at hsame
      exact absurd (Fabric.isEnabled_of_next? hn k) hsame
  | settle => exact absurd rfl hsame
  | remark => exact absurd rfl hsame

theorem Move.leaves (h : Move s s') (hwas : s.fabric.isEnabled k = true)
    (hgone : s'.fabric.isEnabled k = false) : Leaves k s s' := by
  refine ⟨hwas, hgone, h, ?_⟩
  cases h with
  | step h => exact h.leaves hwas hgone
  | keep => exact absurd (hwas.symm.trans hgone) (by decide)
  | tell => exact absurd (hwas.symm.trans hgone) (by decide)

/-- A participant that leaves is delivered nothing at that moment. -/
theorem Leaves.deliveries_eq (h : Leaves k s s') : s'.deliveries = s.deliveries := by
  obtain ⟨x, htells, hjournal⟩ := h.told
  have hnone : x.delivery? = none := by cases htells <;> rfl
  rw [deliveries, hjournal, List.filterMap_append, List.filterMap_cons_none hnone,
    List.filterMap_nil, List.append_nil, deliveries]

end Moves

/-! ## What was put on its way -/

/-- Whether a list holds all that was ever put on its way at a site, in that order. -/
inductive HasPosted : Site → List Delivery → Prop
  | new (storage : Storage) (processes : ProcessTable) : HasPosted (new storage processes) []
  | send {s s' : Site} {posted news : List Delivery} (h : HasPosted s posted)
      (hmove : Move s s')
      (hqueue : s'.fabric.queue.toList = s.fabric.queue.toList ++ news) :
      HasPosted s' (posted ++ news)
  | take {s s' : Site} {posted : List Delivery} {d : Delivery} (h : HasPosted s posted)
      (hmove : Move s s') (hn : s.fabric.next? = some (d, s'.fabric)) : HasPosted s' posted

section Posted

variable {s s' : Site} {posted news : List Delivery} {k : Handle}

theorem HasPosted.moves (h : s.HasPosted posted) (hrow : Moves s s') :
    ∃ more, s'.HasPosted (posted ++ more) := by
  induction hrow with
  | refl => exact ⟨[], (List.append_nil posted).symm ▸ h⟩
  | tail _ hmove ih =>
      obtain ⟨more, hbefore⟩ := ih
      cases hmove.carries with
      | sends hqueue _ =>
          obtain ⟨news, hnews⟩ := hqueue
          refine ⟨more ++ news, ?_⟩
          rw [← List.append_assoc]
          exact hbefore.send hmove hnews.symm
      | makes hn => exact ⟨more, hbefore.take hmove hn⟩
      | loses hn => exact ⟨more, hbefore.take hmove hn⟩

structure Posts (s : Site) (posted : List Delivery) : Prop where
  sound : s.Sound
  attended : s.Attended
  heeded : s.fabric.Heeded
  numbered : s.Numbered
  issued : ∀ d ∈ posted, s.fabric.Issued d.target
  begins : ∀ k, s.received k <+: addressed k posted
  complete : ∀ k, s.fabric.isEnabled k = true →
    s.received k ++ addressed k s.fabric.queue.toList = addressed k posted

theorem posts_new (storage : Storage) (processes : ProcessTable) :
    (new storage processes).Posts [] where
  sound := sound_new storage processes
  attended := attended_new storage processes
  heeded := Fabric.heeded_empty
  numbered := numbered_new storage processes
  issued := nofun
  begins _ := List.nil_prefix
  complete _ _ := rfl

theorem Move.heeded (h : Move s s') (hs : s.Sound) (hheeded : s.fabric.Heeded) :
    s'.fabric.Heeded := by
  obtain ⟨entries, hdoes⟩ := h.does
  exact hdoes.step.heeded hs.fabric hheeded

theorem Move.deliveries_eq_of_grows (h : Move s s')
    (hgrows : s.fabric.queue.toList <+: s'.fabric.queue.toList) : s'.deliveries = s.deliveries := by
  cases h.carries with
  | sends _ hsame => exact hsame
  | makes hn => exact absurd hgrows (Fabric.not_grows_of_next? hn)
  | loses hn => exact absurd hgrows (Fabric.not_grows_of_next? hn)

theorem Posts.nothing_of_not_issued (h : s.Posts posted) (hk : ¬ s.fabric.Issued k) :
    addressed k posted = [] ∧ addressed k s.fabric.queue.toList = [] ∧ s.received k = [] := by
  have hposted : addressed k posted = [] :=
    addressed_eq_nil fun d hd htarget => hk (htarget ▸ h.issued d hd)
  have hbegins := h.begins k
  rw [hposted] at hbegins
  exact ⟨hposted, addressed_eq_nil fun d hd htarget => hk (htarget ▸ h.sound.fabric.target hd),
    List.prefix_nil.1 hbegins⟩

theorem Posts.send (h : s.Posts posted) (hmove : Move s s')
    (hqueue : s'.fabric.queue.toList = s.fabric.queue.toList ++ news) :
    s'.Posts (posted ++ news) := by
  have hsound := hmove.sound h.sound
  have hlater := hmove.isLater
  have hsame : ∀ k, s'.received k = s.received k :=
    received_of_same (hmove.deliveries_eq_of_grows (hqueue ▸ List.prefix_append _ _))
  refine ⟨hsound, hmove.attended h.sound h.attended, hmove.heeded h.sound h.heeded,
    hmove.numbered h.numbered, fun d hd => ?_, fun k => ?_, fun k hen => ?_⟩
  · rcases List.mem_append.1 hd with hd | hd
    · exact hlater.issued (h.issued d hd)
    · exact hsound.fabric.target (hqueue ▸ List.mem_append_right _ hd)
  · rw [hsame, addressed_append]
    exact (h.begins k).trans (List.prefix_append _ _)
  · rw [hsame, hqueue, addressed_append, addressed_append, ← List.append_assoc]
    congr 1
    cases hwas : s.fabric.isEnabled k with
    | true => exact h.complete k hwas
    | false =>
        -- Who takes part now and did not before has only just joined.
        have hissued : ¬ s.fabric.Issued k := by
          intro hissued
          rw [hlater.isEnabled_eq_false hissued hwas] at hen
          cases hen
        obtain ⟨hnone, hempty, hnever⟩ := h.nothing_of_not_issued hissued
        rw [hnone, hempty, hnever]
        rfl

/-- A delivery to who takes part is made, for a listener is there to hear it. -/
theorem Posts.not_lost (h : s.Posts posted) {d : Delivery}
    (hd : d ∈ s.fabric.queue.toList) (hen : s.fabric.isEnabled d.target = true) :
    ¬ (s.fabric.isEnabled d.target = false ∨ s.listeners.find? d.target = none) := by
  obtain ⟨m, hm, _⟩ := Fabric.isEnabled_iff.1 hen
  obtain ⟨l, hl⟩ := h.attended d.target m hm (h.heeded d hd m hm)
  rw [hen, hl]
  simp

theorem Posts.take (h : s.Posts posted) (hmove : Move s s') {d : Delivery}
    (hn : s.fabric.next? = some (d, s'.fabric)) : s'.Posts posted := by
  have hqueue := (Fabric.next?_eq_some hn).1
  have hmember : d ∈ s.fabric.queue.toList := hqueue ▸ List.mem_cons_self
  have hissued := fun d hd => hmove.isLater.issued (h.issued d hd)
  -- Only who the delivery goes to is concerned; for all others both sides stay as they are.
  have hown : ∀ k, s'.received k <+: addressed k posted ∧ (s'.fabric.isEnabled k = true →
      s'.received k ++ addressed k s'.fabric.queue.toList = addressed k posted) := by
    intro k
    rw [Fabric.isEnabled_of_next? hn]
    have hbegins := h.begins k
    have hcomplete := h.complete k
    rw [hqueue] at hcomplete
    by_cases htarget : d.target = k
    · rw [addressed_cons_of_eq htarget] at hcomplete
      cases hmove.carries with
      | sends hgrows => exact absurd hgrows (Fabric.not_grows_of_next? hn)
      | @makes d' hn' hen hmade =>
          rw [hn] at hn'
          cases hn'
          have hreceived : s'.received k = s.received k ++ [d] := htarget ▸ received_of_made hmade
          have hwhole := hcomplete (htarget ▸ hen)
          rw [← List.singleton_append, ← List.append_assoc, ← hreceived] at hwhole
          exact ⟨hwhole ▸ List.prefix_append _ _, fun _ => hwhole⟩
      | @loses d' hn' hlost hsame =>
          rw [hn] at hn'
          cases hn'
          rw [received_of_same hsame]
          exact ⟨hbegins, fun hen => absurd hlost (h.not_lost hmember (htarget.symm ▸ hen))⟩
    · rw [addressed_cons_of_ne htarget] at hcomplete
      have hreceived : s'.received k = s.received k := by
        cases hmove.carries with
        | sends hgrows => exact absurd hgrows (Fabric.not_grows_of_next? hn)
        | @makes d' hn' hen hmade =>
            rw [hn] at hn'
            cases hn'
            exact received_of_made_of_ne hmade htarget
        | loses _ _ hsame => exact received_of_same hsame k
      rw [hreceived]
      exact ⟨hbegins, hcomplete⟩
  exact ⟨hmove.sound h.sound, hmove.attended h.sound h.attended, hmove.heeded h.sound h.heeded,
    hmove.numbered h.numbered, hissued, fun k => (hown k).1, fun k => (hown k).2⟩

theorem HasPosted.posts (h : s.HasPosted posted) : s.Posts posted := by
  induction h with
  | new storage processes => exact posts_new storage processes
  | send _ hmove hqueue ih => exact ih.send hmove hqueue
  | take _ hmove hn ih => exact ih.take hmove hn

/-! ## The moment of leaving -/

/-- Whether a participant left its domain between two sites of the past, and has received since
what it had received then. -/
structure Cut (k : Handle) (posted : List Delivery) (s before after : Site)
    (early : List Delivery) : Prop where
  began : before.HasPosted early
  leaves : Leaves k before after
  since : Moves after s
  grown : early <+: posted
  received : s.received k = before.received k

variable {before after : Site} {early more : List Delivery}

theorem Leaves.cut (h : Leaves k s s') (hposted : s.HasPosted posted) (hgrown : posted <+: more) :
    Cut k more s' s s' posted :=
  ⟨hposted, h, .refl, hgrown, received_of_same h.deliveries_eq k⟩

theorem Cut.never (h : Cut k posted s before after early) :
    s.fabric.Issued k ∧ s.fabric.isEnabled k = false := by
  obtain ⟨m, hm, _⟩ := Fabric.isEnabled_iff.1 h.leaves.was
  have hissued := h.leaves.move.isLater.issued (h.began.posts.sound.fabric.member hm)
  have hlater := Moves.isLater h.since
  exact ⟨hlater.issued hissued, hlater.isEnabled_eq_false hissued h.leaves.gone⟩

theorem Cut.move (h : Cut k posted s before after early) (hmove : Move s s')
    (hgrown : posted <+: more) : Cut k more s' before after early := by
  obtain ⟨hissued, hgone⟩ := h.never
  have hsame := Moves.received_eq (.single hmove) hissued hgone
  exact ⟨h.began, h.leaves, h.since.tail hmove, h.grown.trans hgrown, hsame.trans h.received⟩

theorem exists_cut_move (hmove : Move s s') (hposted : s.HasPosted posted)
    (hgrown : posted <+: more) (hk : k ∈ s'.handles) (hgone : s'.fabric.isEnabled k = false)
    (ih : k ∈ s.handles → s.fabric.isEnabled k = false →
      ∃ before after early, Cut k posted s before after early) :
    ∃ before after early, Cut k more s' before after early := by
  have hnumbered := hposted.posts.numbered
  obtain ⟨hpos, hafter⟩ := (hmove.numbered hnumbered).mem_handles.1 hk
  by_cases hissued : s.fabric.Issued k
  · cases hwas : s.fabric.isEnabled k with
    | true => exact ⟨s, s', posted, (hmove.leaves hwas hgone).cut hposted hgrown⟩
    | false =>
        obtain ⟨before, after, early, hcut⟩ := ih (hnumbered.mem_handles.2 ⟨hpos, hissued⟩) hwas
        exact ⟨before, after, early, hcut.move hmove hgrown⟩
  · rw [hmove.isEnabled_of_issued hissued hafter] at hgone
    cases hgone

/-- Who has joined and takes part no more left at one moment. -/
theorem HasPosted.exists_cut (h : s.HasPosted posted) (hk : k ∈ s.handles)
    (hgone : s.fabric.isEnabled k = false) :
    ∃ before after early, Cut k posted s before after early := by
  induction h with
  | new storage processes => cases hk
  | send hbefore hmove _ ih =>
      exact exists_cut_move hmove hbefore (List.prefix_append _ _) hk hgone ih
  | take hbefore hmove _ ih => exact exists_cut_move hmove hbefore List.prefix_rfl hk hgone ih

end Posted

/-! ## Listeners that panic -/

theorem takeTurn_panic (s : Site) (label : String) (front rest : List Command) :
    s.takeTurn label (front ++ .panic :: rest) = s.takeTurn label front := by
  induction front generalizing s with
  | nil => rfl
  | cons c front ih =>
      by_cases hc : c = .panic
      · subst hc
        rfl
      · simp only [List.cons_append, takeTurn, ih]

/-- A listener that panics has done what it asked before, and no more is different. -/
theorem hear_panic (s : Site) (k : Handle) (label : String) (front rest : List Command)
    (script : Script) (n : Notification) :
    s.hear k (.scripted label ((front ++ .panic :: rest) :: script)) n =
      s.hear k (.scripted label (front :: script)) n :=
  takeTurn_panic _ _ _ _

theorem respond_of_panics {call : Call} (h : call.binding.callback.response = .panics)
    (s : Site) : s.respond call = s := by
  obtain ⟨⟨callback, context⟩, event⟩ := call
  cases callback with
  | native label response =>
      cases h
      rfl
  | foreign function => rfl

/-- A callback that panics is counted by its own listener, and changes nothing besides. -/
theorem invoke_of_panics {call : Call} (h : call.binding.callback.response = .panics) (s : Site)
    (k : Handle) : (s.invoke k call).fabric = s.fabric ∧
      (s.invoke k call).deliveries = s.deliveries ∧
      ∀ k', k' ≠ k → (s.invoke k call).listeners.find? k' = s.listeners.find? k' := by
  have hnone : (sighting k call).delivery? = none := by
    unfold sighting
    split <;> rfl
  have hinvoke : s.invoke k call = (s.note (sighting k call)).settle k call := by
    rw [invoke, respond_of_panics h]
  rw [hinvoke]
  refine ⟨rfl, deliveries_note_of_none hnone, fun k' hk => ?_⟩
  rw [settle]
  exact (OrderedMap.find?_modify _ _ _ _).trans (if_neg hk)

end Site

namespace Deployment

theorem Reachable.hasPosted {d : Deployment} (hd : d.Reachable) :
    ∃ posted, d.site.HasPosted posted := by
  obtain ⟨storage, processes, store, hrun⟩ := hd
  obtain ⟨all, hall⟩ := (Site.HasPosted.new storage processes).moves (Run.moves hrun)
  exact ⟨_, hall⟩

/-- Along every run no handle is given out twice, and every participant receives what was put on
its way to it, once each and in that order: all of it but what is on its way still, as long as it
takes part, and else what had come before the one moment at which it was closed or deleted, for
ever. A panic leaves all else as it is. -/
theorem Reachable.receives_posted {d : Deployment} (hd : d.Reachable) :
    d.site.handles.Nodup ∧ (∃ posted, d.site.HasPosted posted) ∧
    (∀ posted, d.site.HasPosted posted → ∀ k ∈ d.site.handles,
      d.site.received k <+: addressed k posted ∧
      (d.site.fabric.isEnabled k = true →
        d.site.received k ++ addressed k d.site.fabric.queue.toList = addressed k posted) ∧
      (d.site.fabric.isEnabled k = false →
        (∃ before after early, Site.Cut k posted d.site before after early ∧
          d.site.received k ++ addressed k before.fabric.queue.toList = addressed k early) ∧
        ∀ d', Run d d' → d'.site.fabric.isEnabled k = false ∧
          d'.site.received k = d.site.received k)) ∧
    (∀ (s : Site) k label front rest script n,
      s.hear k (.scripted label ((front ++ .panic :: rest) :: script)) n =
        s.hear k (.scripted label (front :: script)) n) ∧
    ∀ (s : Site) k call, call.binding.callback.response = .panics →
      (s.invoke k call).fabric = s.fabric ∧ (s.invoke k call).deliveries = s.deliveries ∧
      ∀ k', k' ≠ k → (s.invoke k call).listeners.find? k' = s.listeners.find? k' := by
  obtain ⟨all, hall⟩ := hd.hasPosted
  refine ⟨hall.posts.numbered.nodup, ⟨_, hall⟩, fun posted hposted k hk => ?_, Site.hear_panic,
    fun s k call h => Site.invoke_of_panics h s k⟩
  have hposts := hposted.posts
  refine ⟨hposts.begins k, hposts.complete k, fun hgone => ⟨?_, fun d' hlater => ?_⟩⟩
  · obtain ⟨before, after, early, hcut⟩ := hposted.exists_cut hk hgone
    refine ⟨before, after, early, hcut, ?_⟩
    rw [hcut.received]
    exact hcut.began.posts.complete k hcut.leaves.was
  · have hissued := (hposts.numbered.mem_handles.1 hk).2
    have hmoves := Run.moves hlater
    exact ⟨hmoves.isLater.isEnabled_eq_false hissued hgone, hmoves.received_eq hissued hgone⟩

/-- A participant whose listener panics upon its first notification, and upon its second closes
the participant and panics; a peer has joined, and is told to have been discovered. -/
def withQuitter : Deployment :=
  (new (Site.new .empty ⟨1, [], 0⟩) .memory).performAll
    [.command (.create 1 ⟨Config.defaultServerPrefix, none, []⟩ "quitter"
        [[.panic], [.close ⟨1⟩, .panic]]),
      .command (.addPeer 1 ⟨Config.defaultRecoveryPrefix, none, []⟩)]

def announcing : Operation :=
  .command (.addEntity ⟨2⟩ .writer "rt/chatter" "String" ⟨[], []⟩ 3)

/-- Of what is put on its way to the quitter, four in all, it receives the first two. -/
theorem quitter_receives :
    (∃ posted, (withQuitter.act .late announcing).1.site.HasPosted posted ∧
      (addressed ⟨1⟩ posted).length = 4) ∧
    ((withQuitter.perform announcing).1.site.received ⟨1⟩).length = 2 ∧
    ∃ posted before after early, (withQuitter.perform announcing).1.site.HasPosted posted ∧
      Site.Cut ⟨1⟩ posted (withQuitter.perform announcing).1.site before after early := by
  have hbefore : withQuitter.Reachable := ⟨_, _, _, run_performAll _ _⟩
  have hasked := hbefore.run (.single (.act withQuitter .late announcing))
  have hdone := hbefore.run (run_perform withQuitter announcing)
  obtain ⟨_, ⟨posted, hposted⟩, hall, _⟩ := hasked.receives_posted
  obtain ⟨_, ⟨posted', hposted'⟩, hall', _⟩ := hdone.receives_posted
  refine ⟨⟨posted, hposted, ?_⟩, by cbv, ?_⟩
  · rw [← (hall posted hposted ⟨1⟩ (by cbv; exact List.mem_cons_self)).2.1 (by cbv)]
    cbv
  · obtain ⟨⟨before, after, early, hcut, _⟩, _⟩ :=
      (hall' posted' hposted' ⟨1⟩ (by cbv; exact List.mem_cons_self)).2.2 (by cbv)
    exact ⟨posted', before, after, early, hposted', hcut⟩

end Deployment

end Rendezvous
