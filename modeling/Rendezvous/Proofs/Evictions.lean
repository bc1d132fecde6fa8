import Rendezvous.Proofs.Tenure

/-!
# Servers that others delete

The participant of a server can be deleted by anybody: by another context that recovers the
domain, by a callback, or by a host. The context that started it is not told, and holds it
still. Main statement: a stop takes a context from the server that it holds exactly if nobody
has deleted the participant before, and else no stop ever does.
-/

namespace Rendezvous

def Sighting.deleted? : Sighting → Option Handle
  | .noticed (.participantDeleted k) => some k
  | _ => none

namespace Fabric

theorem contains_join (f : Fabric) (domain : UInt32) (profile : Profile) (listens : Bool)
    (k : Handle) :
    (f.join domain profile listens).1.contains k = true ↔
      k = f.nextHandle ∨ f.contains k = true := by
  rw [contains, OrderedMap.contains, members_join, OrderedMap.find?_insert]
  split
  · rename_i hk
    exact iff_of_true rfl (.inl hk)
  · rename_i hk
    exact (or_iff_right hk).symm

theorem contains_change (f : Fabric) (k k' : Handle) (m : Member) (after : Option Member)
    (ns : List Notification) :
    (f.change k m after ns).contains k' = if k' = k then after.isSome else f.contains k' := by
  rw [contains, OrderedMap.contains, members_change, OrderedMap.find?_alter]
  split <;> rfl

theorem contains_change_some {f : Fabric} {k : Handle} {m m' : Member}
    {ns : List Notification} (hm : f.members.find? k = some m) (k' : Handle) :
    (f.change k m (some m') ns).contains k' = f.contains k' := by
  rw [contains_change]
  split
  · rename_i hk
    rw [hk, contains, OrderedMap.contains, hm]
    rfl
  · rfl

theorem contains_of_next? {f f' : Fabric} {d : Delivery} (hn : f.next? = some (d, f'))
    (k : Handle) : f'.contains k = f.contains k := by
  rw [(next?_eq_some hn).2]
  rfl

end Fabric

namespace Site

def deletions (s : Site) : List Handle := s.journal.filterMap (·.deleted?)

theorem deletions_note_of_none {s : Site} {x : Sighting} (hx : x.deleted? = none) :
    (s.note x).deletions = s.deletions := filterMap_journal_note_of_none s hx

theorem mem_deletions_delete {s : Site} {k k' : Handle} {fabric : Fabric} :
    k' ∈ ({ s with fabric }.note (.noticed (.participantDeleted k))).deletions ↔
      k' = k ∨ k' ∈ s.deletions := by
  rw [deletions, filterMap_journal_note, List.mem_append, or_comm]
  exact or_congr_left List.mem_singleton

theorem deletions_takeIn (s : Site) (h : Handle) (l : Listener) (n : Notification) :
    (s.takeIn h l n).deletions = s.deletions := by
  apply filterMap_journal_takeIn (fun _ _ _ => rfl)
  intro h call
  unfold sighting
  split <;> rfl

inductive Fate (k : Handle) (s s' : Site) : Prop
  | stays (hknown : s'.fabric.contains k = s.fabric.contains k)
      (hsame : k ∈ s'.deletions ↔ k ∈ s.deletions)
  | joins (hk : k = s.fabric.nextHandle) (hknown : s'.fabric.contains k = true)
      (hsame : s'.deletions = s.deletions)
  | leaves (hwas : s.fabric.contains k = true) (hknown : s'.fabric.contains k = false)
      (htold : k ∈ s'.deletions)

section Moves

variable {s s' : Site} {k : Handle}

theorem Fate.of_same (hknown : s'.fabric.contains k = s.fabric.contains k)
    (hsame : s'.deletions = s.deletions) : s.Fate k s' := by
  apply Fate.stays hknown
  rw [hsame]

theorem fate_join (domain : UInt32) (profile : Profile) (listens : Bool)
    (hfabric : s'.fabric = (s.fabric.join domain profile listens).1)
    (hsame : s'.deletions = s.deletions) : Fate k s s' := by
  have hjoin := s.fabric.contains_join domain profile listens k
  rw [← hfabric] at hjoin
  by_cases hk : k = s.fabric.nextHandle
  · exact .joins hk (hjoin.2 (.inl hk)) hsame
  · apply Fate.of_same _ hsame
    rw [Bool.eq_iff_iff, hjoin, or_iff_right hk]

theorem Step.fate (h : Step s s') (k : Handle) : Fate k s s' := by
  cases h with
  | join domain profile => exact fate_join domain profile false rfl (deletions_note_of_none rfl)
  | create domain profile =>
      cases hf : s.fabric.failNextCreate with
      | true =>
          rw [create_of_refused hf]
          exact .of_same rfl rfl
      | false =>
          rw [create_of_accepted hf]
          exact fate_join domain profile true rfl (deletions_note_of_none rfl)
  | close k' =>
      unfold Site.close
      split
      · rename_i hen
        obtain ⟨m, hm, hmen⟩ := Fabric.isEnabled_iff.1 hen
        refine .of_same ?_ (deletions_note_of_none rfl)
        rw [fabric_note, Fabric.close_of_enabled hm hmen]
        exact Fabric.contains_change_some hm k
      · exact .of_same rfl rfl
  | delete k' =>
      unfold Site.delete
      split
      · rename_i fabric hd
        obtain ⟨_, m, hm, rfl⟩ := Fabric.delete_eq_ok hd
        have hknown := s.fabric.contains_change k' k m none (m.farewell k')
        by_cases hk : k = k'
        · subst hk
          refine .leaves ?_ ?_ (mem_deletions_delete.2 (.inl rfl))
          · rw [Fabric.contains, OrderedMap.contains, hm]
            rfl
          · exact hknown.trans (if_pos rfl)
        · exact .stays (hknown.trans (if_neg hk)) (mem_deletions_delete.trans (or_iff_right hk))
      · exact .of_same rfl rfl
  | announce h =>
      obtain ⟨m, hm, rfl⟩ := Fabric.addEntity_eq_ok h
      exact .of_same (Fabric.contains_change_some hm k) rfl
  | withdraw h =>
      obtain ⟨m, e, hm, _, rfl⟩ := Fabric.removeEntity_eq_ok h
      exact .of_same (Fabric.contains_change_some hm k) rfl
  | changeQos h =>
      obtain ⟨m, hm, rfl⟩ := Fabric.updateQos_eq_ok h
      exact .of_same (Fabric.contains_change_some hm k) rfl
  | configure => exact .of_same rfl rfl
  | lose hn => exact .of_same (Fabric.contains_of_next? hn k) rfl
  | hear hn =>
      refine .of_same ?_ ?_
      · rw [fabric_takeIn]
        exact Fabric.contains_of_next? hn k
      · rw [deletions_takeIn]
        exact deletions_note_of_none rfl
  | settle => exact .of_same rfl rfl
  | remark hx =>
      refine .of_same rfl (deletions_note_of_none ?_)
      cases hx <;> rfl

theorem Move.fate (h : Move s s') (k : Handle) : Fate k s s' := by
  cases h with
  | step h => exact h.fate k
  | keep => exact .of_same rfl rfl
  | tell h =>
      refine .of_same rfl (deletions_note_of_none ?_)
      cases h <;> rfl

/-- Whether whoever was deleted had joined, and is not known any more. -/
def Buries (s : Site) : Prop :=
  ∀ k ∈ s.deletions, s.fabric.Issued k ∧ s.fabric.contains k = false

theorem Move.buries (h : Move s s') (hs : s.Sound) (hburies : s.Buries) : s'.Buries := by
  intro k hk
  have hlater := h.isLater
  cases h.fate k with
  | stays hknown hsame =>
      obtain ⟨hissued, hgone⟩ := hburies k (hsame.1 hk)
      exact ⟨hlater.issued hissued, hknown.trans hgone⟩
  | joins hnew _ hsame =>
      rw [hsame] at hk
      rw [hnew] at hk
      exact absurd (hburies _ hk).1 s.fabric.not_issued_nextHandle
  | leaves hwas hgone =>
      obtain ⟨m, hm⟩ := Option.isSome_iff_exists.1 hwas
      exact ⟨hlater.issued (hs.fabric.member hm), hgone⟩

/-- Whether a participant is known, or was deleted. -/
def Traces (s : Site) (k : Handle) : Prop := s.fabric.contains k = true ∨ k ∈ s.deletions

theorem Move.traces (h : Move s s') (htraces : s.Traces k) : s'.Traces k := by
  cases h.fate k with
  | stays hknown hsame => exact htraces.imp hknown.trans hsame.2
  | joins _ hknown => exact .inl hknown
  | leaves _ _ htold => exact .inr htold

theorem Moves.deletions_grow (h : Moves s s') : s.deletions <+: s'.deletions :=
  h.journal_grows.filterMap _

end Moves

end Site

namespace Context

variable {c : Context} {s : Site} {domain : UInt32} {running : Running}

theorem stop_of_contains (hr : c.serverOn? domain = some running)
    (haccepts : s.fabric.refuseDeletes = false) (hknown : s.fabric.contains running.handle = true)
    (t : Timing) :
    (c.stop t s domain).1 = { c with server := none } := by
  obtain ⟨m, hm⟩ := Option.isSome_iff_exists.1 hknown
  simp only [stop, hr, Site.delete, Fabric.delete_of_find? haccepts hm]

theorem stop_of_not_contains (hr : c.serverOn? domain = some running)
    (hgone : s.fabric.contains running.handle = false) (t : Timing) :
    ∃ e, c.stop t s domain = (c, s, .error (.deletionFailure domain e)) := by
  have hm : s.fabric.members.find? running.handle = none :=
    OrderedMap.find?_eq_none_of_not_contains (Bool.not_eq_true _ ▸ hgone)
  cases hrefuse : s.fabric.refuseDeletes <;>
    simp [stop, hr, Site.delete, Fabric.delete, hrefuse, hm]

end Context

namespace Deployment

variable {d : Deployment} {op : Operation} {c : Context} {domain : UInt32} {running : Running}

theorem Reachable.buries (hd : d.Reachable) : d.site.Buries := by
  obtain ⟨storage, processes, store, hrun⟩ := hd
  exact (Run.moves hrun).invariant (fun hmove hs h => hmove.buries hs h)
    (Site.sound_new storage processes) nofun

/-- A server that a context holds is known unless the journal tells that it was deleted. -/
theorem Reachable.contains_held (hd : d.Reachable) (hc : d.Owns c) (hr : c.server = some running) :
    d.site.fabric.contains running.handle = true ↔ running.handle ∉ d.site.deletions := by
  have htraces : d.site.Traces running.handle := by
    apply hd.holds (P := fun _ running s => s.Traces running.handle) _ _ hc hr
    · exact fun hmove _ h => hmove.traces h
    · intro s config domain registry _ hf
      left
      rw [Site.create_of_accepted hf]
      exact (s.fabric.contains_join _ _ _ _).2 (.inl rfl)
  constructor
  · intro hknown htold
    rw [(hd.buries _ htold).2] at hknown
    cases hknown
  · exact htraces.resolve_right

theorem AsksToStop.at?_act (hasks : d.AsksToStop op c domain) (t : Timing) :
    ∃ seat, d.at? seat = some c ∧
      (d.act t op).1.at? seat = some (c.stop t d.site domain).1 := by
  rcases hasks with ⟨name, rfl, hc⟩ | ⟨rfl, hc⟩
  · refine ⟨.named name, hc, ?_⟩
    rw [act_stop hc t, at?_setContext, if_pos rfl]
  · refine ⟨.installed, hc, ?_⟩
    simp only [act, answered, HostInterface.Bridge.stop, hc, at?]

/-- If deletions are accepted, a stop takes a context from the server of a domain exactly if nobody
has deleted the participant before. Otherwise the context goes on holding it, and neither this
stop nor any later one changes that. -/
theorem AsksToStop.leaves_server (hd : d.Reachable) (hasks : d.AsksToStop op c domain)
    (haccepts : d.site.fabric.refuseDeletes = false) (t : Timing) :
    (∃ seat, d.at? seat = some c ∧ (d.act t op).1.at? seat = some (c.stop t d.site domain).1) ∧
    ((c.stop t d.site domain).1.serverOn? domain = none ↔
      ∀ running, c.serverOn? domain = some running → running.handle ∉ d.site.deletions) ∧
    ∀ running, c.serverOn? domain = some running → running.handle ∈ d.site.deletions →
      ∀ d', Run d d' → ∀ t',
        ∃ e, c.stop t' d'.site domain = (c, d'.site, .error (.deletionFailure domain e)) := by
  have hstuck : ∀ running, c.serverOn? domain = some running →
      running.handle ∈ d.site.deletions → ∀ d', Run d d' → ∀ t',
        ∃ e, c.stop t' d'.site domain = (c, d'.site, .error (.deletionFailure domain e)) := by
    intro running hr htold d' hrun t'
    have hstill := (Run.moves hrun).deletions_grow.subset htold
    exact Context.stop_of_not_contains hr ((hd.run hrun).buries _ hstill).2 t'
  refine ⟨hasks.at?_act t, ⟨fun hleft running hr htold => ?_, fun hnot => ?_⟩, hstuck⟩
  · obtain ⟨e, hstop⟩ := hstuck running hr htold d .refl t
    rw [hstop, hr] at hleft
    cases hleft
  · cases hserver : c.serverOn? domain with
    | none =>
        rcases c.stop_context t d.site domain with hsame | hleft
        · rw [hsame, hserver]
        · rw [hleft]
          rfl
    | some running =>
        have hr : c.server = some running := (Option.filter_eq_some_iff.1 hserver).1
        have hknown := (hd.contains_held hasks.owns hr).2 (hnot running hserver)
        rw [Context.stop_of_contains hserver haccepts hknown]
        rfl

/-- The context that runs a server while another one stands by. -/
def serving : Context := ⟨Config.default (.ofString "state"), .memory, some ⟨1, ⟨1⟩⟩⟩

theorem server_left : withBystander.AsksToStop (.stop "A" 1) serving 1 ∧
    withBystander.site.fabric.refuseDeletes = false ∧
    ∃ seat c, (withBystander.act .late (.stop "A" 1)).1.at? seat = some c ∧
      c.serverOn? 1 = none := by
  have hd : withBystander.Reachable := ⟨_, _, _, run_performAll _ _⟩
  have hasks : withBystander.AsksToStop (.stop "A" 1) serving 1 := .inl ⟨"A", rfl, by cbv⟩
  have haccepts : withBystander.site.fabric.refuseDeletes = false := by cbv
  have hnone : withBystander.site.deletions = [] := by cbv
  obtain ⟨⟨seat, _, hafter⟩, hleaves, _⟩ := hasks.leaves_server hd haccepts .late
  refine ⟨hasks, haccepts, seat, _, hafter, hleaves.2 fun running _ htold => ?_⟩
  rw [hnone] at htold
  cases htold

/-- The same after the other context has recovered the domain. -/
def evicted : Deployment := withBystander.performAll [.stop "B" 1]

/-- A context whose server another one has deleted holds it after every stop. -/
theorem not_leaves_server : ¬ ∀ (d : Deployment) (op : Operation) (c : Context)
    (domain : UInt32), d.Reachable → d.AsksToStop op c domain →
      d.site.fabric.refuseDeletes = false → d.site.fabric.failNextCreate = false →
        (c.stop .prompt d.site domain).1.serverOn? domain = none := by
  intro halways
  have hbefore : withBystander.Reachable := ⟨_, _, _, run_performAll _ _⟩
  have hd : evicted.Reachable := hbefore.run (run_performAll _ _)
  have hasks : evicted.AsksToStop (.stop "A" 1) serving 1 := .inl ⟨"A", rfl, by cbv⟩
  have hheld : (serving.stop .prompt evicted.site 1).1.serverOn? 1 = some ⟨1, ⟨1⟩⟩ := by cbv
  rw [halways _ _ _ _ hd hasks (by cbv) (by cbv)] at hheld
  cases hheld

end Deployment

end Rendezvous
