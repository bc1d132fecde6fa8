import Mathlib.Logic.Relation
import Rendezvous.Proofs.Membership
import Rendezvous.Site.Drain

/-!
# What a site can do

Every operation on a site is a row of small steps: one thing happens to the fabric, or a
listener takes in what it hears, or something is remarked. What is to hold along every run
needs to be shown for one step only.
-/

namespace Rendezvous

inductive Listener.IsNew : Listener → Prop
  | discovery (registry : Registry) (includeInternals : Bool) :
      IsNew (.discovery (.new registry (some (.new includeInternals))))
  | recovery (target : GuidPrefix) : IsNew (.recovery target 0)
  | scripted (label : String) (script : Script) : IsNew (.scripted label script)

/-- A sighting that tells of no member, no delivery and no call. -/
inductive Sighting.IsRemark : Sighting → Prop
  | replied (label : String) (reply : Reply) : IsRemark (.replied label reply)
  | deleted (label : String) (result : Except FabricError Unit) : IsRemark (.deleted label result)

/-- What a step may add to the journal; calls are made for participants that take part. -/
inductive Sighting.IsNews (f : Fabric) : Sighting → Prop
  | joined (h : Handle) (guidPrefix : GuidPrefix) (domain : UInt32) :
      IsNews f (.noticed (.participantJoined h guidPrefix domain))
  | closed (h : Handle) : IsNews f (.noticed (.participantClosed h))
  | deleted (h : Handle) : IsNews f (.noticed (.participantDeleted h))
  | published (version participants topics : Nat) :
      IsNews f (.noticed (.graphPublished version participants topics))
  | delivered (d : Delivery) (label : Option String) : IsNews f (.delivered d label)
  | called {h : Handle} (hen : f.isEnabled h = true) (call : Call) :
      IsNews f (Site.sighting h call)
  | remark {x : Sighting} (hx : x.IsRemark) : IsNews f x

inductive Notice.IsOfServer : Notice → Prop
  | starting (domain : UInt32) (registry : Registry) : IsOfServer (.serverStarting domain registry)
  | started (guidPrefix : GuidPrefix) (domain : UInt32) (handle : Handle) :
      IsOfServer (.serverStarted guidPrefix domain handle)
  | notSaved (domain : UInt32) (e : StoreError) : IsOfServer (.recordNotSaved domain e)
  | stopped (domain : UInt32) : IsOfServer (.serverStopped domain)
  | replaced (handle : Handle) (domain : UInt32) : IsOfServer (.serverReplaced handle domain)
  | dropped (handle : Handle) (domain : UInt32) : IsOfServer (.serverDropped handle domain)
  | notCleared (domain : UInt32) (e : StoreError) : IsOfServer (.recordNotCleared domain e)

namespace Site

/-- What a listener does first with a notification that it hears: it takes it in, and if a
callback is to be called, it calls it. -/
def takeIn (s : Site) (h : Handle) (l : Listener) (n : Notification) : Site :=
  match l with
  | .discovery l =>
      match l.receive n with
      | (l', none) => (s.setListener h (.discovery l')).notePublished l l'
      | (l', some call) =>
          ((s.setListener h (.discovery l')).notePublished l l').note (sighting h call)
  | .recovery target matched =>
      match discovers? target n with
      | none => s
      | some _ => s.setListener h (.recovery target (matched + 1))
  | .scripted label script => s.setListener h (.scripted label script.tail)

/-- All that can happen at a site at once, as long as no context acts. -/
inductive Step : Site → Site → Prop
  | join (s : Site) (domain : UInt32) (profile : Profile) : Step s (s.join domain profile).1
  | create (s : Site) (domain : UInt32) (profile : Profile) {l : Listener} (hl : l.IsNew) :
      Step s (s.create domain profile l).1
  | close (s : Site) (h : Handle) : Step s (s.close h)
  | delete (s : Site) (h : Handle) : Step s (s.delete h).1
  | announce {s : Site} {owner : Handle} {kind : EntityKind} {topicName typeName : String}
      {locators : RemoteLocators} {id : EntityId} {fabric : Fabric}
      (h : s.fabric.addEntity owner kind topicName typeName locators = .ok (fabric, id)) :
      Step s { s with fabric }
  | withdraw {s : Site} {owner : Handle} {id : EntityId} {fabric : Fabric}
      (h : s.fabric.removeEntity owner id = .ok fabric) : Step s { s with fabric }
  | changeQos {s : Site} {owner : Handle} {fabric : Fabric}
      (h : s.fabric.updateQos owner = .ok fabric) : Step s { s with fabric }
  | configure (s : Site) (failNextCreate refuseDeletes : Bool) :
      Step s { s with fabric := { s.fabric with failNextCreate, refuseDeletes } }
  /-- A delivery is dropped, for nobody is there to hear it. -/
  | lose {s : Site} {d : Delivery} {fabric : Fabric} (hn : s.fabric.next? = some (d, fabric))
      (hd : fabric.isEnabled d.target = false ∨ s.listeners.find? d.target = none) :
      Step s { s with fabric }
  | hear {s : Site} {d : Delivery} {fabric : Fabric} {l : Listener}
      (hn : s.fabric.next? = some (d, fabric)) (hen : fabric.isEnabled d.target = true)
      (hl : s.listeners.find? d.target = some l) :
      Step s (({ s with fabric }.note (.delivered d l.label?)).takeIn d.target l d.notification)
  | settle (s : Site) (h : Handle) (call : Call) : Step s (s.settle h call)
  | remark (s : Site) {sighting : Sighting} (hs : sighting.IsRemark) : Step s (s.note sighting)

abbrev Steps : Site → Site → Prop := Relation.ReflTransGen Step

/-! ## Operations are rows of steps -/

theorem steps_replyWith {s : Site} {r : Except FabricError Fabric}
    (h : ∀ fabric, r = .ok fabric → Step s { s with fabric }) : Steps s (s.replyWith r).1 := by
  cases r with
  | ok fabric => exact .single (h fabric rfl)
  | error e => exact .refl

theorem steps_addEntities (s : Site) (owner : Handle) (kind : EntityKind)
    (topicName typeName : String) (locators : RemoteLocators) (copies : Nat) (reply : Reply) :
    Steps s (s.addEntities owner kind topicName typeName locators copies reply).1 := by
  induction copies generalizing s reply with
  | zero => exact .refl
  | succ copies ih =>
      simp only [addEntities]
      split
      · rename_i h
        exact .head (.announce h) (ih _ _)
      · exact ih _ _

theorem steps_perform (s : Site) (c : Command) : Steps s (s.perform c).1 := by
  cases c with
  | addPeer domain profile => exact .single (.join s domain profile)
  | create domain profile label script =>
      have hstep := Step.create s domain profile (.scripted label script)
      simp only [perform]
      split <;> rename_i heq <;> rw [heq] at hstep <;> exact .single hstep
  | addEntity owner kind topicName typeName locators copies =>
      exact steps_addEntities _ _ _ _ _ _ _ _
  | removeEntity owner id => exact steps_replyWith fun _ h => .withdraw h
  | updateQos h => exact steps_replyWith fun _ h => .changeQos h
  | close h => exact .single (.close s h)
  | delete h =>
      have hstep := Step.delete s h
      simp only [perform]
      split <;> rename_i heq <;> rw [heq] at hstep <;> exact .single hstep
  | failNextCreate => exact .single (.configure s true s.fabric.refuseDeletes)
  | refuseDeletes on => exact .single (.configure s s.fabric.failNextCreate on)
  | contains h => exact .refl
  | isEnabled h => exact .refl
  | count domain => exact .refl
  | panic => exact .refl

theorem steps_takeTurn (s : Site) (label : String) (turn : List Command) :
    Steps s (s.takeTurn label turn) := by
  induction turn generalizing s with
  | nil => exact .refl
  | cons c turn ih =>
      by_cases hc : c = .panic
      · subst hc
        exact .refl
      · simp only [takeTurn]
        exact ((steps_perform s c).tail (.remark _ (.replied _ _))).trans (ih _)

theorem steps_respond (s : Site) (call : Call) : Steps s (s.respond call) := by
  simp only [respond]
  split
  · exact .tail (.single (.delete s _)) (.remark _ (.deleted _ _))
  · exact .refl

theorem steps_hear (s : Site) (h : Handle) (l : Listener) (n : Notification) :
    Steps (s.takeIn h l n) (s.hear h l n) := by
  cases l with
  | discovery l =>
      rcases hr : l.receive n with ⟨l', call⟩
      simp only [takeIn, hear, hr]
      cases call with
      | none => exact .refl
      | some call => exact (steps_respond _ call).tail (.settle _ h call)
  | recovery target matched =>
      cases hd : discovers? target n with
      | none =>
          simp only [takeIn, hear, hd]
          exact .refl
      | some server =>
          simp only [takeIn, hear, hd]
          exact .single (.delete _ server)
  | scripted label script => exact steps_takeTurn _ _ _

theorem steps_of_step? {s s' : Site} (h : s.step? = some s') : Steps s s' := by
  obtain ⟨d, fabric, hn, rfl⟩ := exists_deliver_of_step? h
  simp only [deliver]
  split
  · rename_i hen
    split
    · rename_i hl
      exact .single (.lose hn (.inr hl))
    · rename_i l hl
      exact .head (.hear hn hen hl) (steps_hear _ _ _ _)
  · rename_i hen
    exact .single (.lose hn (.inl (Bool.not_eq_true _ ▸ hen)))

theorem Drains.steps {s s' : Site} (h : Drains s s') : Steps s s' := by
  induction h with
  | refl => exact .refl
  | head hstep _ ih => exact (steps_of_step? hstep).trans ih

/-! ## What the journal tells of one matter -/

section Telling

variable {α : Type} {tells? : Sighting → Option α}

theorem filterMap_journal_note (tells? : Sighting → Option α) (s : Site) (x : Sighting) :
    (s.note x).journal.filterMap tells? = s.journal.filterMap tells? ++ (tells? x).toList := by
  rw [journal_note, List.filterMap_append]
  cases hx : tells? x <;> simp [hx]

theorem filterMap_journal_note_of_none (s : Site) {x : Sighting} (hx : tells? x = none) :
    (s.note x).journal.filterMap tells? = s.journal.filterMap tells? := by
  rw [filterMap_journal_note, hx, Option.toList_none, List.append_nil]

/-- Taking a notification in tells of nothing but of what is published and called. -/
theorem filterMap_journal_takeIn
    (hpublished : ∀ version participants topics,
      tells? (.noticed (.graphPublished version participants topics)) = none)
    (hcalled : ∀ h call, tells? (sighting h call) = none) (s : Site) (h : Handle) (l : Listener)
    (n : Notification) :
    (s.takeIn h l n).journal.filterMap tells? = s.journal.filterMap tells? := by
  cases l with
  | discovery l =>
      have hnoted (s : Site) (l' : DiscoveryListener) :
          (s.notePublished l l').journal.filterMap tells? = s.journal.filterMap tells? := by
        unfold notePublished
        split
        · split
          · rfl
          · exact filterMap_journal_note_of_none s (hpublished _ _ _)
        · rfl
      rcases hr : l.receive n with ⟨l', call⟩
      simp only [takeIn, hr]
      cases call with
      | none => exact hnoted _ l'
      | some call => exact (filterMap_journal_note_of_none _ (hcalled h call)).trans (hnoted _ l')
  | recovery target matched =>
      simp only [takeIn]
      split <;> rfl
  | scripted label script => rfl

end Telling

/-! ## What steps add to the journal -/

def Adds (s s' : Site) : Prop :=
  ∃ news, s'.seen = news ++ s.seen ∧ ∀ x ∈ news, x.IsNews s.fabric

theorem adds_none {s s' : Site} (h : s'.seen = s.seen) : s.Adds s' := ⟨[], h, by simp⟩

theorem adds_note {s s' : Site} {x : Sighting} (h : s'.seen = x :: s.seen)
    (hx : x.IsNews s.fabric) : s.Adds s' := ⟨[x], h, by simpa using hx⟩

theorem adds_notePublished (s : Site) (before after : DiscoveryListener) :
    s.Adds (s.notePublished before after) := by
  unfold notePublished
  split
  · split
    · exact adds_none rfl
    · exact adds_note rfl (.published _ _ _)
  · exact adds_none rfl

theorem adds_takeIn {s : Site} {h : Handle} (hen : s.fabric.isEnabled h = true) (l : Listener)
    (n : Notification) : s.Adds (s.takeIn h l n) := by
  cases l with
  | discovery l =>
      rcases hr : l.receive n with ⟨l', call⟩
      simp only [takeIn, hr]
      obtain ⟨news, hseen, hnews⟩ :=
        adds_notePublished (s.setListener h (.discovery l')) l l'
      cases call with
      | none => exact ⟨news, hseen, hnews⟩
      | some call =>
          refine ⟨sighting h call :: news, congrArg (sighting h call :: ·) hseen, ?_⟩
          intro x hx
          rcases List.mem_cons.1 hx with rfl | hx
          · exact .called hen call
          · exact hnews x hx
  | recovery target matched =>
      simp only [takeIn]
      split <;> exact adds_none rfl
  | scripted label script => exact adds_none rfl

theorem create_of_refused {s : Site} (h : s.fabric.failNextCreate = true) (domain : UInt32)
    (profile : Profile) (l : Listener) :
    s.create domain profile l =
      ({ s with fabric := { s.fabric with failNextCreate := false } }, none) := by
  simp [create, Fabric.create, h]

theorem create_of_accepted {s : Site} (h : s.fabric.failNextCreate = false) (domain : UInt32)
    (profile : Profile) (l : Listener) :
    s.create domain profile l =
      ((({ s with fabric := (s.fabric.join domain profile true).1 }.setListener
        s.fabric.nextHandle l).noteJoined s.fabric.nextHandle profile domain),
        some s.fabric.nextHandle) := by
  simp [create, Fabric.create, h, Fabric.join]

theorem isEnabled_delete {s : Site} (href : s.fabric.refuseDeletes = false) (k : Handle) :
    (s.delete k).1.fabric.isEnabled k = false := by
  cases hm : s.fabric.members.find? k with
  | none =>
      have hfail : s.fabric.delete k = .error (.unknownParticipant k) := by
        simp [Fabric.delete, href, hm]
      simp only [delete, hfail]
      rw [Fabric.isEnabled, hm]
      rfl
  | some m =>
      have hdelete := Fabric.delete_of_find? href hm
      simp only [delete, hdelete]
      rw [fabric_note, Fabric.isEnabled, Fabric.members_change, OrderedMap.find?_alter, if_pos rfl]
      rfl

/-- A deletion that is refused changes nothing. -/
theorem delete_eq_error {s s' : Site} {k : Handle} {e : FabricError}
    (h : s.delete k = (s', .error e)) : s' = s := by
  unfold delete at h
  split at h <;> cases h
  rfl

theorem Step.adds {s s' : Site} (h : Step s s') : s.Adds s' := by
  cases h with
  | join domain profile => exact adds_note rfl (.joined _ _ _)
  | create domain profile =>
      cases hf : s.fabric.failNextCreate with
      | true =>
          rw [create_of_refused hf]
          exact adds_none rfl
      | false =>
          rw [create_of_accepted hf]
          exact adds_note rfl (.joined _ _ _)
  | close k =>
      unfold Site.close
      split
      · exact adds_note rfl (.closed k)
      · exact adds_none rfl
  | delete k =>
      unfold Site.delete
      split
      · exact adds_note rfl (.deleted k)
      · exact adds_none rfl
  | announce => exact adds_none rfl
  | withdraw => exact adds_none rfl
  | changeQos => exact adds_none rfl
  | configure => exact adds_none rfl
  | lose => exact adds_none rfl
  | @hear d fabric l hn hen hl =>
      obtain ⟨news, hseen, hnews⟩ :=
        adds_takeIn (s := { s with fabric }.note (.delivered d l.label?)) hen l d.notification
      have hmembers : fabric.members = s.fabric.members := by
        rw [(Fabric.next?_eq_some hn).2]
      refine ⟨news ++ [.delivered d l.label?], ?_, ?_⟩
      · rw [hseen, List.append_assoc]
        rfl
      · intro x hx
        rcases List.mem_append.1 hx with hx | hx
        · cases hnews x hx with
          | joined => exact .joined _ _ _
          | closed => exact .closed _
          | deleted => exact .deleted _
          | published => exact .published _ _ _
          | delivered => exact .delivered _ _
          | called hen call =>
              refine .called ?_ call
              rw [Fabric.isEnabled, ← hmembers]
              exact hen
          | remark hx => exact .remark hx
        · cases List.mem_singleton.1 hx
          exact .delivered d _
  | settle => exact adds_none rfl
  | remark hx => exact adds_note rfl (.remark hx)

end Site

end Rendezvous
