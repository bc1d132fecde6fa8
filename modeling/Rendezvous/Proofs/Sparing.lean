import Rendezvous.Proofs.Routing

/-!
# What leaves some participants alone

A command spares some participants if it neither closes nor deletes any of them, and makes
no listener that does. Callbacks are asked for participants as they come, so what they
spare is told by the journal. Main statement: as long as commands, scripts and callbacks
spare some participants, no delivery takes any of these from its domain.
-/

namespace Rendezvous

/-- Whether a command closes and deletes none of some participants, refuses no deletion, and makes
no listener that does either. -/
inductive Command.Spares (kept : Handle → Prop) : Command → Prop
  | addPeer (domain : UInt32) (profile : Profile) : Spares kept (.addPeer domain profile)
  | create (domain : UInt32) (profile : Profile) (label : String) {script : Script}
      (h : ∀ turn ∈ script, ∀ c ∈ turn, Spares kept c) :
      Spares kept (.create domain profile label script)
  | addEntity (owner : Handle) (kind : EntityKind) (topicName typeName : String)
      (locators : RemoteLocators) (copies : Nat) :
      Spares kept (.addEntity owner kind topicName typeName locators copies)
  | removeEntity (owner : Handle) (id : EntityId) : Spares kept (.removeEntity owner id)
  | updateQos (k : Handle) : Spares kept (.updateQos k)
  | close {k : Handle} (h : ¬ kept k) : Spares kept (.close k)
  | delete {k : Handle} (h : ¬ kept k) : Spares kept (.delete k)
  | failNextCreate : Spares kept .failNextCreate
  | acceptDeletes : Spares kept (.refuseDeletes false)
  | contains (k : Handle) : Spares kept (.contains k)
  | isEnabled (k : Handle) : Spares kept (.isEnabled k)
  | count (domain : UInt32) : Spares kept (.count domain)
  | panic : Spares kept .panic

/-- Whether all that a script asks for spares some participants; what callbacks ask for cannot be
told from the listener. -/
def Listener.Spares (kept : Handle → Prop) : Listener → Prop
  | .discovery _ => True
  | .recovery _ _ => False
  | .scripted _ script => ∀ turn ∈ script, ∀ c ∈ turn, c.Spares kept

theorem Listener.Spares.discovery (kept : Handle → Prop) (l : DiscoveryListener) :
    (Listener.discovery l).Spares kept := trivial

def Sighting.victim? : Sighting → Option Handle
  | .called _ call =>
      match call.binding.callback with
      | .native _ .deletes => some (Site.victim call.event)
      | _ => none
  | _ => none

namespace Fabric

variable {f f' : Fabric} {k k' : Handle}

/-- Only its own close or deletion takes a participant from its domain. -/
theorem Performs.isEnabled {deed : Deed} (h : f.Performs k deed f')
    (hen : f.isEnabled k' = true) (hstays : k' = k → deed ≠ .close ∧ deed ≠ .delete) :
    f'.isEnabled k' = true := by
  obtain ⟨m, after, ns, hm, _, rfl, hpresence⟩ := h.change
  by_contra hgone
  have hnone := presence?_eq_none_iff.2 (Bool.not_eq_true _ ▸ hgone)
  rw [presence?_change] at hnone
  split at hnone
  · rename_i hk
    subst hk
    obtain ⟨hclose, hdelete⟩ := hstays rfl
    obtain ⟨m', hm', hmen⟩ := isEnabled_iff.1 hen
    rw [hm] at hm'
    cases hm'
    rw [(hpresence hmen).2] at hnone
    cases deed with
    | close => exact hclose rfl
    | delete => exact hdelete rfl
    | announce => cases hnone
    | withdraw => cases hnone
    | changeQos => cases hnone
  · rw [presence?_eq_none_iff, hen] at hnone
    cases hnone

theorem Performs.refuseDeletes_eq {deed : Deed} (h : f.Performs k deed f') :
    f'.refuseDeletes = f.refuseDeletes := by
  obtain ⟨m, after, ns, _, _, rfl, _⟩ := h.change
  exact refuseDeletes_change _ _ _ _ _

theorem isEnabled_join (hen : f.isEnabled k = true) (domain : UInt32) (profile : Profile)
    (listens : Bool) : (f.join domain profile listens).1.isEnabled k = true := by
  by_contra hgone
  have hnone := presence?_eq_none_iff.2 (Bool.not_eq_true _ ▸ hgone)
  rw [presence?_join] at hnone
  split at hnone
  · cases hnone
  · rw [presence?_eq_none_iff, hen] at hnone
    cases hnone

/-- Where a participant takes part stays the same for as long as it takes part. -/
theorem IsLater.part?_eq (h : f'.IsLater f) (hf : f.Sound) {p : GuidPrefix} {domain : UInt32}
    (hpart : f.part? k = some (p, domain)) (hen : f'.isEnabled k = true) :
    f'.part? k = some (p, domain) := by
  obtain ⟨m, hm, _, rfl, rfl⟩ := part?_eq_some_iff.1 hpart
  obtain ⟨m', hm', hen'⟩ := isEnabled_iff.1 hen
  obtain ⟨was, hwas, hlater⟩ := h.member (hf.member hm) hm'
  rw [hm] at hwas
  cases hwas
  exact part?_eq_some_iff.2 ⟨m', hm', hen', by rw [hlater.profile], hlater.domain⟩

end Fabric

namespace Site

/-- Whether some participants go on taking part, deletions go on being accepted, and every
listener that is new spares those participants. -/
structure Keeps (kept : Handle → Prop) (s s' : Site) : Prop where
  isLater : s'.fabric.IsLater s.fabric
  isEnabled : ∀ {k}, kept k → s.fabric.isEnabled k = true → s'.fabric.isEnabled k = true
  accepts : s.fabric.refuseDeletes = false → s'.fabric.refuseDeletes = false
  listener : ∀ {k l}, s'.listeners.find? k = some l →
    s.listeners.find? k = some l ∨ l.Spares kept

section Keeps

variable {kept : Handle → Prop} {s s' s'' : Site}

theorem Keeps.refl (s : Site) : s.Keeps kept s := ⟨.refl _, fun _ => id, id, .inl⟩

theorem Keeps.trans (h : s.Keeps kept s') (h' : s'.Keeps kept s'') : s.Keeps kept s'' where
  isLater := h'.isLater.trans h.isLater
  isEnabled hk hen := h'.isEnabled hk (h.isEnabled hk hen)
  accepts hs := h'.accepts (h.accepts hs)
  listener hl := by
    rcases h'.listener hl with hold | hnew
    · exact h.listener hold
    · exact .inr hnew

theorem Keeps.of_same (h : s.Keeps kept s') (hfabric : s''.fabric = s'.fabric)
    (hlisteners : s''.listeners = s'.listeners) : s.Keeps kept s'' := by
  refine ⟨?_, ?_, ?_, ?_⟩
  · rw [hfabric]
    exact h.isLater
  · rw [hfabric]
    exact h.isEnabled
  · rw [hfabric]
    exact h.accepts
  · rw [hlisteners]
    exact h.listener

theorem keeps_note (s : Site) (x : Sighting) : s.Keeps kept (s.note x) :=
  (Keeps.refl s).of_same rfl rfl

theorem keeps_setListener (s : Site) (k : Handle) {l : Listener} (hl : l.Spares kept) :
    s.Keeps kept (s.setListener k l) := by
  refine ⟨.refl _, fun _ => id, id, fun {k' l'} hl' => ?_⟩
  rw [setListener, OrderedMap.find?_insert] at hl'
  split at hl'
  · cases hl'
    exact .inr hl
  · exact .inl hl'

theorem keeps_performs {k : Handle} {deed : Deed} {fabric : Fabric}
    (h : s.fabric.Performs k deed fabric)
    (hspares : deed = .close ∨ deed = .delete → ¬ kept k) : s.Keeps kept { s with fabric } := by
  refine ⟨(Fabric.Does.perform h).step.isLater, fun {k'} hk hen => ?_, fun hs => ?_, .inl⟩
  · apply h.isEnabled hen
    intro heq
    rw [heq] at hk
    exact ⟨fun hclose => hspares (.inl hclose) hk, fun hdelete => hspares (.inr hdelete) hk⟩
  · exact h.refuseDeletes_eq.trans hs

theorem keeps_join (s : Site) (domain : UInt32) (profile : Profile) (listens : Bool) :
    s.Keeps kept { s with fabric := (s.fabric.join domain profile listens).1 } :=
  ⟨(Fabric.Step.join _ _ _ _).isLater, fun _ hen => Fabric.isEnabled_join hen _ _ _, id, .inl⟩

theorem keeps_configure (s : Site) (failNextCreate : Bool) : s.Keeps kept
    { s with fabric := { s.fabric with failNextCreate } } :=
  ⟨(Fabric.Step.configure s.fabric failNextCreate _).isLater, fun _ => id, id, .inl⟩

theorem keeps_create (s : Site) (domain : UInt32) (profile : Profile) {l : Listener}
    (hl : l.Spares kept) : s.Keeps kept (s.create domain profile l).1 := by
  cases hf : s.fabric.failNextCreate with
  | true =>
      rw [create_of_refused hf]
      exact keeps_configure s false
  | false =>
      rw [create_of_accepted hf]
      exact ((keeps_join s domain profile true).trans (keeps_setListener _ _ hl)).trans
        (keeps_note _ _)

theorem keeps_close {k : Handle} (hk : ¬ kept k) : s.Keeps kept (s.close k) := by
  unfold close
  split
  · rename_i hen
    exact (keeps_performs (.close hen) fun _ => hk).trans (keeps_note _ _)
  · exact .refl s

theorem keeps_delete {k : Handle} (hk : ¬ kept k) : s.Keeps kept (s.delete k).1 := by
  unfold delete
  split
  · rename_i hd
    exact (keeps_performs (.delete hd) fun _ => hk).trans (keeps_note _ _)
  · exact .refl s

theorem keeps_addEntities (s : Site) (owner : Handle) (kind : EntityKind)
    (topicName typeName : String) (locators : RemoteLocators) (copies : Nat) (reply : Reply) :
    s.Keeps kept (s.addEntities owner kind topicName typeName locators copies reply).1 := by
  induction copies generalizing s reply with
  | zero => exact .refl s
  | succ copies ih =>
      unfold addEntities
      split
      · rename_i h
        exact (keeps_performs (.announce h) (by simp)).trans (ih _ _)
      · exact ih _ _

/-! ## Commands -/

theorem keeps_perform {c : Command} (hc : c.Spares kept) (s : Site) :
    s.Keeps kept (s.perform c).1 := by
  cases hc with
  | addPeer domain profile => exact (keeps_join s domain profile false).trans (keeps_note _ _)
  | @create domain profile label script h =>
      have hcreate := keeps_create s domain profile (l := .scripted label script) h
      simp only [perform]
      split <;> rename_i heq <;> rw [heq] at hcreate <;> exact hcreate
  | addEntity owner kind topicName typeName locators copies =>
      exact keeps_addEntities s owner kind topicName typeName locators copies _
  | removeEntity owner id =>
      simp only [perform]
      cases hr : s.fabric.removeEntity owner id with
      | ok fabric =>
          obtain ⟨m, e, hm, he, _⟩ := Fabric.removeEntity_eq_ok hr
          exact keeps_performs (.withdraw hm he hr) (by simp)
      | error e => exact .refl s
  | updateQos k =>
      simp only [perform]
      cases hr : s.fabric.updateQos k with
      | ok fabric => exact keeps_performs (.changeQos hr) (by simp)
      | error e => exact .refl s
  | close hk => exact keeps_close hk
  | delete hk =>
      have hdelete := keeps_delete (s := s) hk
      simp only [perform]
      split <;> rename_i heq <;> rw [heq] at hdelete <;> exact hdelete
  | failNextCreate => exact keeps_configure s true
  | acceptDeletes =>
      exact ⟨(Fabric.Step.configure s.fabric _ false).isLater, fun _ => id, fun _ => rfl, .inl⟩
  | contains => exact .refl s
  | isEnabled => exact .refl s
  | count => exact .refl s
  | panic => exact .refl s

theorem keeps_takeTurn {turn : List Command} (hturn : ∀ c ∈ turn, c.Spares kept) (s : Site)
    (label : String) : s.Keeps kept (s.takeTurn label turn) := by
  induction turn generalizing s with
  | nil => exact .refl s
  | cons c turn ih =>
      by_cases hpanic : c = .panic
      · subst hpanic
        exact .refl s
      · have hrest : ∀ c' ∈ turn, c'.Spares kept :=
          fun c' hc' => hturn c' (List.mem_cons_of_mem _ hc')
        have hperform := keeps_perform (hturn c List.mem_cons_self) s
        simp only [takeTurn]
        exact (hperform.trans (keeps_note _ _)).trans (ih hrest _)

/-! ## Deliveries -/

def victims (s : Site) : List Handle := s.journal.filterMap (·.victim?)

def CallsSpare (kept : Handle → Prop) (s : Site) : Prop := ∀ k ∈ s.victims, ¬ kept k

theorem CallsSpare.earlier (h : s'.CallsSpare kept) (hgrows : s.journal <+: s'.journal) :
    s.CallsSpare kept := fun k hk => h k ((hgrows.filterMap _).subset hk)

theorem keeps_respond {h : Handle} {call : Call} (s : Site)
    (hspares : ∀ k, (sighting h call).victim? = some k → ¬ kept k) :
    s.Keeps kept (s.respond call) := by
  unfold respond
  split
  · rename_i label hb
    apply (keeps_delete _).trans (keeps_note _ _)
    apply hspares
    simp only [sighting, hb, Sighting.victim?]
  · exact .refl s

theorem keeps_settle (s : Site) (h : Handle) (call : Call) : s.Keeps kept (s.settle h call) := by
  refine ⟨.refl _, fun _ => id, id, fun {k l} hl => ?_⟩
  simp only [settle, OrderedMap.find?_modify] at hl
  split at hl
  · obtain ⟨l', hl', rfl⟩ := Option.map_eq_some_iff.1 hl
    rename_i hk
    rw [hk]
    cases l' with
    | discovery l' => exact .inr (.discovery kept _)
    | recovery target n => exact .inl hl'
    | scripted label script => exact .inl hl'
  · exact .inl hl

theorem keeps_publish (s : Site) (before after : DiscoveryListener) :
    s.Keeps kept (s.notePublished before after) :=
  (Keeps.refl s).of_same (fabric_notePublished _ _ _) (listeners_notePublished _ _ _)

theorem keeps_hear {l : Listener} (hl : l.Spares kept) (s : Site) (h : Handle)
    (n : Notification) (hcalls : (s.hear h l n).CallsSpare kept) :
    s.Keeps kept (s.hear h l n) := by
  cases l with
  | recovery target matched => exact hl.elim
  | scripted label script =>
      have hrest : Listener.Spares kept (.scripted label script.tail) :=
        fun turn hturn => hl turn (List.mem_of_mem_tail hturn)
      have hturn : ∀ c ∈ script.head?.getD [], c.Spares kept := by
        cases script with
        | nil => exact nofun
        | cons turn script => exact hl turn List.mem_cons_self
      exact (keeps_setListener s h hrest).trans (keeps_takeTurn hturn _ label)
  | discovery l =>
      have hgrows := (steps_hear s h (.discovery l) n).moves.journal_grows
      rcases hr : l.receive n with ⟨l', call⟩
      have hset : s.Keeps kept ((s.setListener h (.discovery l')).notePublished l l') :=
        (keeps_setListener s h (.discovery kept l')).trans (keeps_publish _ l l')
      simp only [takeIn, hear, hr] at hgrows hcalls ⊢
      cases call with
      | none => exact hset
      | some call =>
          have hasked := hcalls.earlier hgrows
          have hnoted := hset.trans (keeps_note _ (sighting h call))
          refine (hnoted.trans (keeps_respond (h := h) _ ?_)).trans (keeps_settle _ h call)
          intro k hk
          apply hasked
          rw [victims, journal_note, List.filterMap_append, List.filterMap_cons_some hk]
          exact List.mem_append_right _ List.mem_cons_self

/-- Whether every listener, one excepted, is out of use or spares some participants. -/
def SparesBut (kept : Handle → Prop) (except : Option Handle) (s : Site) : Prop :=
  ∀ k l, some k ≠ except → s.listeners.find? k = some l →
    (s.fabric.Issued k ∧ s.fabric.isEnabled k = false) ∨ l.Spares kept

/-- Listeners are out of use or spare some participants if they were or did before. -/
theorem SparesBut.of_found {except except' : Option Handle} (h : s.SparesBut kept except)
    (hlater : s'.fabric.IsLater s.fabric)
    (hfound : ∀ {k l}, some k ≠ except' → s'.listeners.find? k = some l →
      ((s'.fabric.Issued k ∧ s'.fabric.isEnabled k = false) ∨ l.Spares kept) ∨
        (some k ≠ except ∧ s.listeners.find? k = some l)) : s'.SparesBut kept except' := by
  intro k l hne hl
  rcases hfound hne hl with hnew | ⟨hne', hold⟩
  · exact hnew
  · rcases h k l hne' hold with ⟨hissued, hout⟩ | hspares
    · exact .inl ⟨hlater.issued hissued, hlater.isEnabled_eq_false hissued hout⟩
    · exact .inr hspares

theorem SparesBut.of_same {except : Option Handle} (h : s.SparesBut kept except)
    (hlater : s'.fabric.IsLater s.fabric) (hsame : s'.listeners = s.listeners) :
    s'.SparesBut kept except := by
  apply h.of_found hlater
  intro k l hne hl
  rw [hsame] at hl
  exact .inr ⟨hne, hl⟩

theorem SparesBut.keeps {except : Option Handle} (h : s.SparesBut kept except)
    (hkeeps : s.Keeps kept s') : s'.SparesBut kept except := by
  apply h.of_found hkeeps.isLater
  intro k l hne hl
  rcases hkeeps.listener hl with hold | hnew
  · exact .inr ⟨hne, hold⟩
  · exact .inl (.inr hnew)

theorem SparesBut.keeps_deliver {except : Option Handle} (h : s.SparesBut kept except)
    {d : Delivery} {fabric : Fabric} (hn : s.fabric.next? = some (d, fabric))
    (hne : some d.target ≠ except) (hcalls : ({ s with fabric }.deliver d).CallsSpare kept) :
    s.Keeps kept ({ s with fabric }.deliver d) := by
  have htake : s.Keeps kept { s with fabric } := by
    have hrest := (Fabric.next?_eq_some hn).2
    refine ⟨(Fabric.Step.take hn).isLater, fun _ hen => ?_, fun hs => ?_, .inl⟩
    · exact (Fabric.isEnabled_of_next? hn _).trans hen
    · rw [hrest]
      exact hs
  unfold deliver at hcalls ⊢
  split
  · rename_i hen
    split
    · exact htake
    · rename_i l hl
      have hspares : l.Spares kept := by
        rcases h d.target l hne hl with ⟨_, hout⟩ | hspares
        · rw [Fabric.isEnabled_of_next? hn, hout] at hen
          cases hen
        · exact hspares
      simp only [hen, if_true, hl] at hcalls
      exact (htake.trans (keeps_note _ _)).trans (keeps_hear hspares _ _ _ hcalls)
  · exact htake

theorem SparesBut.keeps_step (h : s.SparesBut kept none) (hstep : s.step? = some s')
    (hcalls : s'.CallsSpare kept) : s.Keeps kept s' := by
  obtain ⟨d, fabric, hn, rfl⟩ := exists_deliver_of_step? hstep
  exact h.keeps_deliver hn (Option.some_ne_none _) hcalls

theorem SparesBut.keeps_drains (h : s.SparesBut kept none) (hdrains : s.Drains s')
    (hcalls : s'.CallsSpare kept) : s.Keeps kept s' := by
  induction hdrains with
  | refl => exact .refl _
  | head hstep hrest ih =>
      have hkeeps := h.keeps_step hstep (hcalls.earlier hrest.steps.moves.journal_grows)
      exact hkeeps.trans (ih (h.keeps hkeeps) hcalls)

end Keeps

end Site

end Rendezvous
