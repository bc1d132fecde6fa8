import Rendezvous.OrderedMap.Total
import Rendezvous.Site

/-!
# Draining a site

Deliveries queue more deliveries, so the length of the queue does not bound what is still
to come. Three numbers do, in this order: the weight of the scripts not yet followed, the
number of participants, and the length of the queue. A listener with a script uses up a
turn of it; any other listener queues something only by deleting a participant; and a
delivery that does neither leaves a shorter queue. Main statement: draining ends with an
empty queue.
-/

namespace Rendezvous

namespace Fabric

theorem members_announceDeparture (f : Fabric) (h : Handle) (m : Member) :
    (f.announceDeparture h m).members = f.members := rfl

/-- A deletion that is not refused leaves one participant less. -/
theorem size_members_of_delete {f f' : Fabric} {h : Handle} (hd : f.delete h = .ok f') :
    f'.members.size + 1 = f.members.size := by
  simp only [delete] at hd
  split at hd
  · simp at hd
  · split at hd
    · simp at hd
    · rename_i m hm
      have hsize := OrderedMap.size_erase_of_find?_eq_some hm
      simp only [Except.ok.injEq] at hd
      subst hd
      split
      · rw [members_announceDeparture]
        exact hsize
      · exact hsize

theorem members_of_next? {f f' : Fabric} {d : Delivery} (hn : f.next? = some (d, f')) :
    f'.members = f.members := by
  simp only [next?, Option.map_eq_some_iff] at hn
  obtain ⟨⟨d', q⟩, _, heq⟩ := hn
  simp only [Prod.mk.injEq] at heq
  obtain ⟨_, rfl⟩ := heq
  rfl

theorem size_queue_of_next? {f f' : Fabric} {d : Delivery} (hn : f.next? = some (d, f')) :
    f.queue.size = f'.queue.size + 1 := by
  simp only [next?, Option.map_eq_some_iff] at hn
  obtain ⟨⟨d', q⟩, hpop, heq⟩ := hn
  simp only [Prod.mk.injEq] at heq
  obtain ⟨_, rfl⟩ := heq
  exact Queue.size_of_pop?_eq_some hpop

theorem next?_eq_none_iff {f : Fabric} : f.next? = none ↔ f.queue.toList = [] := by
  simp [next?, Queue.pop?_eq_none_iff]

end Fabric

namespace Site

/-- The weight of the scripts that listeners have still to follow. -/
def weight (s : Site) : Nat := s.listeners.total Listener.weight

/-- What bounds the deliveries still to come, the first number before the others. -/
def remaining (s : Site) : Nat × Nat × Nat :=
  (s.weight, s.fabric.members.size, s.fabric.queue.size)

/-- The order in which what remains goes down. -/
def Less (a b : Nat × Nat × Nat) : Prop :=
  Prod.Lex (· < ·) (Prod.Lex (· < ·) (· < ·)) a b

theorem less_wf : WellFounded Less :=
  (Prod.lex Nat.lt_wfRel (Prod.lex Nat.lt_wfRel Nat.lt_wfRel)).wf

/-! ## What an operation does to the weight -/

@[simp] theorem weight_note (s : Site) (seen : Sighting) : (s.note seen).weight = s.weight := rfl

@[simp] theorem fabric_note (s : Site) (seen : Sighting) : (s.note seen).fabric = s.fabric := rfl

theorem weight_notePublished (s : Site) (before after : DiscoveryListener) :
    (s.notePublished before after).weight = s.weight := by
  simp only [notePublished]
  split
  · split <;> rfl
  · rfl

theorem fabric_notePublished (s : Site) (before after : DiscoveryListener) :
    (s.notePublished before after).fabric = s.fabric := by
  simp only [notePublished]
  split
  · split <;> rfl
  · rfl

@[simp] theorem fabric_setListener (s : Site) (h : Handle) (l : Listener) :
    (s.setListener h l).fabric = s.fabric := rfl

theorem weight_setListener_le (s : Site) (h : Handle) (l : Listener) :
    (s.setListener h l).weight ≤ s.weight + l.weight :=
  OrderedMap.total_insert_le _ _ _ _

theorem weight_setListener {s : Site} {h : Handle} {old : Listener}
    (hold : s.listeners.find? h = some old) (l : Listener) :
    (s.setListener h l).weight + old.weight = s.weight + l.weight := by
  have ht := OrderedMap.total_insert Listener.weight s.listeners h l
  simpa [hold, OrderedMap.weigh, weight, setListener] using ht

theorem weight_create_le (s : Site) (domain : UInt32) (profile : Profile) (l : Listener) :
    (s.create domain profile l).1.weight ≤ s.weight + l.weight := by
  simp only [create]
  split
  · exact Nat.le_add_right _ _
  · exact weight_setListener_le _ _ _

theorem weight_replyWith (s : Site) (r : Except FabricError Fabric) :
    (s.replyWith r).1.weight = s.weight := by
  cases r <;> rfl

theorem weight_delete (s : Site) (h : Handle) : (s.delete h).1.weight = s.weight := by
  simp only [delete]
  split <;> rfl

theorem weight_close (s : Site) (h : Handle) : (s.close h).weight = s.weight := by
  simp only [close]
  split <;> rfl

theorem weight_addEntities (s : Site) (owner : Handle) (kind : EntityKind)
    (topicName typeName : String) (locators : RemoteLocators) (copies : Nat) (reply : Reply) :
    (s.addEntities owner kind topicName typeName locators copies reply).1.weight = s.weight := by
  induction copies generalizing s reply with
  | zero => rfl
  | succ copies ih =>
      simp only [addEntities]
      split <;> rw [ih]
      rfl

theorem weight_perform_le (s : Site) (c : Command) :
    (s.perform c).1.weight ≤ s.weight + c.weight := by
  cases c with
  | create domain profile label script =>
      have h := weight_create_le s domain profile (.scripted label script)
      simp only [perform]
      split <;> rename_i heq <;> rw [heq] at h <;> simpa [Command.weight, Listener.weight] using h
  | addEntity owner kind topicName typeName locators copies =>
      simp [perform, weight_addEntities]
  | removeEntity owner id => simp [perform, weight_replyWith]
  | updateQos h => simp [perform, weight_replyWith]
  | delete h =>
      have hw := weight_delete s h
      simp only [perform]
      split <;> rename_i heq <;> rw [heq] at hw <;> exact hw ▸ Nat.le_add_right _ _
  | addPeer domain profile => exact Nat.le_add_right _ _
  | close h => exact weight_close s h ▸ Nat.le_add_right _ _
  | failNextCreate => exact Nat.le_add_right _ _
  | refuseDeletes on => exact Nat.le_add_right _ _
  | contains h => exact Nat.le_add_right _ _
  | isEnabled h => exact Nat.le_add_right _ _
  | count domain => exact Nat.le_add_right _ _
  | panic => exact Nat.le_add_right _ _

theorem weight_takeTurn_le (s : Site) (label : String) (turn : List Command) :
    (s.takeTurn label turn).weight ≤ s.weight + turnWeight turn := by
  induction turn generalizing s with
  | nil => exact Nat.le_add_right _ _
  | cons c turn ih =>
      by_cases hc : c = .panic
      · subst hc
        exact Nat.le_add_right _ _
      · have hstep := weight_perform_le s c
        have hrest := ih ((s.perform c).1.note (.replied label (s.perform c).2))
        rw [weight_note] at hrest
        simp only [takeTurn, turnWeight]
        omega

theorem weight_respond (s : Site) (call : Call) : (s.respond call).weight = s.weight := by
  simp only [respond]
  split
  · rw [weight_note, weight_delete]
  · rfl

theorem weight_settle (s : Site) (h : Handle) (call : Call) :
    (s.settle h call).weight = s.weight := by
  refine OrderedMap.total_modify _ _ _ _ fun l => ?_
  cases l <;> rfl

theorem weight_invoke (s : Site) (h : Handle) (call : Call) :
    (s.invoke h call).weight = s.weight := by
  simp only [invoke, weight_settle, weight_respond, weight_note]

/-! ## What a delivery does to what remains -/

/-- Deleting a participant leaves the fabric as it was, or one participant smaller. -/
theorem delete_fabric (s : Site) (h : Handle) :
    (s.delete h).1.fabric = s.fabric ∨
      (s.delete h).1.fabric.members.size < s.fabric.members.size := by
  simp only [delete]
  split
  · rename_i fabric heq
    have hsize := Fabric.size_members_of_delete heq
    exact .inr (by simp only [fabric_note]; omega)
  · exact .inl rfl

theorem respond_fabric (s : Site) (call : Call) :
    (s.respond call).fabric = s.fabric ∨
      (s.respond call).fabric.members.size < s.fabric.members.size := by
  simp only [respond]
  split
  · exact delete_fabric _ _
  · exact .inl rfl

/-- A listener without a turn to take keeps the weight, and leaves the fabric as it was or
smaller; one with a turn to take makes the weight smaller. -/
theorem hear_progress {s : Site} {h : Handle} {l : Listener}
    (hl : s.listeners.find? h = some l) (n : Notification) :
    (s.hear h l n).weight < s.weight ∨
      (s.hear h l n).weight = s.weight ∧
        ((s.hear h l n).fabric = s.fabric ∨
          (s.hear h l n).fabric.members.size < s.fabric.members.size) := by
  cases l with
  | discovery l =>
      have hkeep (l' : DiscoveryListener) :
          (s.setListener h (.discovery l')).weight = s.weight := by
        simpa [Listener.weight] using weight_setListener hl (.discovery l')
      right
      simp only [hear]
      split
      · rename_i l' _
        exact ⟨(weight_notePublished _ _ _).trans (hkeep l'), .inl (fabric_notePublished _ _ _)⟩
      · rename_i l' call _
        have hf := fabric_notePublished (s.setListener h (.discovery l')) l l'
        refine ⟨(weight_invoke _ _ _).trans ((weight_notePublished _ _ _).trans (hkeep l')), ?_⟩
        have hr := respond_fabric
          (((s.setListener h (.discovery l')).notePublished l l').note (sighting h call)) call
        rwa [fabric_note, hf] at hr
  | recovery target matched =>
      right
      simp only [hear]
      split
      · exact ⟨rfl, .inl rfl⟩
      · rename_i server _
        refine ⟨?_, delete_fabric (s.setListener h (.recovery target (matched + 1))) server⟩
        rw [weight_delete]
        simpa [Listener.weight] using weight_setListener hl (.recovery target (matched + 1))
  | scripted label script =>
      have hset := weight_setListener hl (.scripted label script.tail)
      have hturn := weight_takeTurn_le (s.setListener h (.scripted label script.tail)) label
        (script.head?.getD [])
      cases script with
      | nil =>
          right
          simp only [Listener.weight, List.tail_nil, Nat.add_right_cancel_iff] at hset
          exact ⟨hset, .inl rfl⟩
      | cons turn script =>
          left
          simp only [Listener.weight, scriptWeight, List.tail_cons, List.head?_cons,
            Option.getD_some] at hset hturn
          simp only [hear, List.tail_cons, List.head?_cons, Option.getD_some]
          omega

theorem deliver_progress (s : Site) (d : Delivery) :
    (s.deliver d).weight < s.weight ∨
      (s.deliver d).weight = s.weight ∧
        ((s.deliver d).fabric = s.fabric ∨
          (s.deliver d).fabric.members.size < s.fabric.members.size) := by
  simp only [deliver]
  split
  · split
    · exact .inr ⟨rfl, .inl rfl⟩
    · rename_i l hl
      exact hear_progress (s := s.note (.delivered d l.label?)) hl d.notification
  · exact .inr ⟨rfl, .inl rfl⟩

theorem exists_deliver_of_step? {s s' : Site} (h : s.step? = some s') :
    ∃ d fabric, s.fabric.next? = some (d, fabric) ∧ s' = { s with fabric }.deliver d := by
  simp only [step?, Option.map_eq_some_iff] at h
  obtain ⟨⟨d, fabric⟩, hn, rfl⟩ := h
  exact ⟨d, fabric, hn, rfl⟩

/-- Each delivery leaves less to come. -/
theorem remaining_of_step? {s s' : Site} (h : s.step? = some s') :
    Less s'.remaining s.remaining := by
  obtain ⟨d, f, hn, rfl⟩ := exists_deliver_of_step? h
  have hmembers := Fabric.members_of_next? hn
  have hqueue := Fabric.size_queue_of_next? hn
  rcases deliver_progress { s with fabric := f } d with hw | ⟨hw, hf | hf⟩
  · exact .left _ _ hw
  · simp only [remaining, hw, hf, hmembers, hqueue]
    exact .right _ (.right _ (Nat.lt_succ_self _))
  · rw [hmembers] at hf
    simp only [remaining, hw]
    exact .right _ (.left _ _ hf)

/-- Make deliveries until none is due. -/
def drain (s : Site) : Site :=
  match _h : s.step? with
  | none => s
  | some s' => drain s'
termination_by less_wf.wrap s.remaining
decreasing_by exact remaining_of_step? _h

theorem step?_eq_none_iff {s : Site} : s.step? = none ↔ s.fabric.queue.toList = [] := by
  simp [step?, Fabric.next?_eq_none_iff]

theorem drain_of_step?_eq_none {s : Site} (h : s.step? = none) : s.drain = s := by
  rw [drain]
  split
  · rfl
  · simp_all

theorem drain_of_step?_eq_some {s s' : Site} (h : s.step? = some s') : s.drain = s'.drain := by
  rw [drain]
  split
  · simp_all
  · rename_i s'' h''
    rw [h] at h''
    cases h''
    rfl

/-- Draining ends with no delivery on its way. -/
theorem queue_drain (s : Site) : s.drain.fabric.queue.toList = [] := by
  fun_induction drain s with
  | case1 s h => exact step?_eq_none_iff.1 h
  | case2 s s' _ ih => exact ih

/-! ## Some of the deliveries -/

/-- What single deliveries lead to. -/
inductive Drains : Site → Site → Prop
  | refl (s : Site) : Drains s s
  | head {s s' s'' : Site} (hstep : s.step? = some s') (hrest : Drains s' s'') : Drains s s''

theorem drains_drain (s : Site) : s.Drains s.drain := by
  fun_induction drain s with
  | case1 s h => exact .refl s
  | case2 s s' hstep ih => exact .head hstep ih

theorem Drains.drain_eq {s s' : Site} (h : s.Drains s') : s.drain = s'.drain := by
  induction h with
  | refl => rfl
  | head hstep _ ih => exact (drain_of_step?_eq_some hstep).trans ih

/-- Once nothing is on its way, all deliveries are made. -/
theorem Drains.eq_drain {s s' : Site} (h : s.Drains s')
    (hqueue : s'.fabric.queue.toList = []) : s' = s.drain :=
  (drain_of_step?_eq_none (step?_eq_none_iff.2 hqueue)).symm.trans h.drain_eq.symm

end Site

end Rendezvous
