import Rendezvous.Proofs.Hearing
import Rendezvous.Proofs.Runs

/-!
# What becomes of listeners

A listener stays what it is: it only takes in what it hears, and of its script what it has
followed is gone. A delivery made to one participant leaves the listeners of all others as
they are, whatever is done meanwhile. Main statement: the listener of a participant that
takes no part any more never changes again.
-/

namespace Rendezvous

inductive Listener.IsLater : Listener → Listener → Prop
  | discovery {l' l : DiscoveryListener} (h : l'.registry = l.registry) :
      IsLater (.discovery l') (.discovery l)
  | recovery {target : GuidPrefix} {n' n : Nat} (h : n ≤ n') :
      IsLater (.recovery target n') (.recovery target n)
  | scripted {label : String} {script' script : Script} (h : script' <:+ script) :
      IsLater (.scripted label script') (.scripted label script)

theorem Listener.IsLater.refl (l : Listener) : l.IsLater l := by
  cases l with
  | discovery l => exact .discovery rfl
  | recovery target n => exact .recovery (Nat.le_refl n)
  | scripted label script => exact .scripted List.suffix_rfl

theorem Listener.IsLater.trans {a b c : Listener} (h : a.IsLater b) (h' : b.IsLater c) :
    a.IsLater c := by
  cases h with
  | discovery h =>
      cases h' with
      | discovery h' => exact .discovery (h.trans h')
  | recovery h =>
      cases h' with
      | recovery h' => exact .recovery (Nat.le_trans h' h)
  | scripted h =>
      cases h' with
      | scripted h' => exact .scripted (h.trans h')

namespace Site

theorem find?_listeners_create {s : Site} {k : Handle} (hk : s.fabric.Issued k)
    (domain : UInt32) (profile : Profile) (l : Listener) :
    (s.create domain profile l).1.listeners.find? k = s.listeners.find? k := by
  have hne : k ≠ s.fabric.nextHandle := by
    rintro rfl
    exact s.fabric.not_issued_nextHandle hk
  cases hf : s.fabric.failNextCreate with
  | true => rw [create_of_refused hf]
  | false =>
      rw [create_of_accepted hf]
      exact (OrderedMap.find?_insert _ _ _ _).trans (if_neg hne)

theorem listeners_delete (s : Site) (h : Handle) : (s.delete h).1.listeners = s.listeners := by
  unfold delete
  split <;> rfl

theorem listeners_close (s : Site) (h : Handle) : (s.close h).listeners = s.listeners := by
  unfold close
  split <;> rfl

/-! ## A listener stays what it is -/

theorem find?_listeners_takeIn (s : Site) (h : Handle) (l : Listener) (n : Notification)
    (hl : s.listeners.find? h = some l) :
    ∃ l', (s.takeIn h l n).listeners.find? h = some l' ∧ l'.IsLater l := by
  cases l with
  | discovery l =>
      exact ⟨_, find?_listeners_takeIn_discovery s h l n, .discovery (l.registry_receive n)⟩
  | recovery target matched =>
      simp only [takeIn]
      split
      · exact ⟨_, hl, .refl _⟩
      · exact ⟨_, (OrderedMap.find?_insert _ _ _ _).trans (if_pos rfl), .recovery (by omega)⟩
  | scripted label script =>
      exact ⟨_, (OrderedMap.find?_insert _ _ _ _).trans (if_pos rfl),
        .scripted (List.tail_suffix _)⟩

theorem Step.listener {s s' : Site} (h : Step s s') {k : Handle} (hk : s.fabric.Issued k)
    {l : Listener} (hl : s.listeners.find? k = some l) :
    ∃ l', s'.listeners.find? k = some l' ∧ l'.IsLater l := by
  cases h with
  | create domain profile =>
      exact ⟨l, (find?_listeners_create hk domain profile _).trans hl, .refl l⟩
  | close target =>
      rw [listeners_close]
      exact ⟨l, hl, .refl l⟩
  | delete target =>
      rw [listeners_delete]
      exact ⟨l, hl, .refl l⟩
  | @hear d fabric l' hn hen hl' =>
      by_cases htarget : d.target = k
      · rw [htarget] at hl' ⊢
        rw [hl] at hl'
        cases hl'
        exact find?_listeners_takeIn ({ s with fabric }.note _) k l d.notification hl
      · exact ⟨l, (find?_listeners_takeIn_of_ne _ (Ne.symm htarget) _ _).trans hl, .refl l⟩
  | settle target call =>
      simp only [Site.settle, OrderedMap.find?_modify]
      by_cases htarget : k = target
      · rw [if_pos htarget, ← htarget, hl]
        cases l with
        | discovery l => exact ⟨_, rfl, .discovery (l.registry_settle _)⟩
        | recovery target n => exact ⟨_, rfl, .refl _⟩
        | scripted label script => exact ⟨_, rfl, .refl _⟩
      · rw [if_neg htarget]
        exact ⟨l, hl, .refl l⟩
  | join => exact ⟨l, hl, .refl l⟩
  | announce => exact ⟨l, hl, .refl l⟩
  | withdraw => exact ⟨l, hl, .refl l⟩
  | changeQos => exact ⟨l, hl, .refl l⟩
  | configure => exact ⟨l, hl, .refl l⟩
  | lose => exact ⟨l, hl, .refl l⟩
  | remark => exact ⟨l, hl, .refl l⟩

theorem Moves.listener {s s' : Site} (h : Moves s s') {k : Handle} (hk : s.fabric.Issued k)
    {l : Listener} (hl : s.listeners.find? k = some l) :
    ∃ l', s'.listeners.find? k = some l' ∧ l'.IsLater l := by
  induction h with
  | refl => exact ⟨l, hl, .refl l⟩
  | tail hrow hmove ih =>
      obtain ⟨l₁, hl₁, hlater⟩ := ih
      cases hmove with
      | step h =>
          have hissued := (Moves.isLater hrow).issued hk
          obtain ⟨l₂, hl₂, hlater'⟩ := h.listener hissued hl₁
          exact ⟨l₂, hl₂, hlater'.trans hlater⟩
      | keep => exact ⟨l₁, hl₁, hlater⟩
      | tell => exact ⟨l₁, hl₁, hlater⟩

/-! ## Deliveries to others -/

theorem listeners_addEntities (s : Site) (owner : Handle) (kind : EntityKind)
    (topicName typeName : String) (locators : RemoteLocators) (copies : Nat) (reply : Reply) :
    (s.addEntities owner kind topicName typeName locators copies reply).1.listeners =
      s.listeners := by
  induction copies generalizing s reply with
  | zero => rfl
  | succ copies ih =>
      unfold addEntities
      split <;> rw [ih]

theorem listeners_replyWith (s : Site) (r : Except FabricError Fabric) :
    (s.replyWith r).1.listeners = s.listeners := by
  cases r <;> rfl

variable {s s' : Site} {k : Handle}

/-- No command changes a listener that is there. -/
theorem find?_listeners_perform (hk : s.fabric.Issued k) (c : Command) :
    (s.perform c).1.listeners.find? k = s.listeners.find? k := by
  cases c with
  | create domain profile label script =>
      have hcreate := find?_listeners_create hk domain profile (.scripted label script)
      simp only [perform]
      split <;> rename_i heq <;> rw [heq] at hcreate <;> exact hcreate
  | addEntity owner kind topicName typeName locators copies =>
      exact congrArg (·.find? k) (listeners_addEntities _ _ _ _ _ _ _ _)
  | removeEntity owner id => exact congrArg (·.find? k) (listeners_replyWith _ _)
  | updateQos h => exact congrArg (·.find? k) (listeners_replyWith _ _)
  | close h => exact congrArg (·.find? k) (listeners_close s h)
  | delete h =>
      have hdelete := listeners_delete s h
      simp only [perform]
      split <;> rename_i heq <;> rw [heq] at hdelete <;> exact congrArg (·.find? k) hdelete
  | addPeer => rfl
  | failNextCreate => rfl
  | refuseDeletes => rfl
  | contains => rfl
  | isEnabled => rfl
  | count => rfl
  | panic => rfl

theorem find?_listeners_takeTurn (hk : s.fabric.Issued k) (label : String)
    (turn : List Command) :
    (s.takeTurn label turn).listeners.find? k = s.listeners.find? k := by
  induction turn generalizing s with
  | nil => rfl
  | cons c turn ih =>
      by_cases hc : c = .panic
      · subst hc
        rfl
      · have hissued := (Moves.isLater (steps_perform s c).moves).issued hk
        simp only [takeTurn]
        rw [ih (s := (s.perform c).1.note (.replied label (s.perform c).2)) hissued]
        exact find?_listeners_perform hk c

theorem listeners_respond (s : Site) (call : Call) : (s.respond call).listeners = s.listeners := by
  unfold respond
  split
  · exact listeners_delete _ _
  · rfl

theorem find?_listeners_hear_of_ne (hk : s.fabric.Issued k) {h : Handle} (hne : k ≠ h)
    (l : Listener) (n : Notification) :
    (s.hear h l n).listeners.find? k = s.listeners.find? k := by
  have hset : ∀ l', (s.setListener h l').listeners.find? k = s.listeners.find? k := by
    intro l'
    rw [setListener, OrderedMap.find?_insert, if_neg hne]
  cases l with
  | discovery l =>
      rcases hr : l.receive n with ⟨l', call⟩
      simp only [hear, hr]
      cases call with
      | none =>
          simp only
          rw [listeners_notePublished]
          exact hset _
      | some call =>
          simp only [invoke, settle]
          rw [OrderedMap.find?_modify, if_neg hne, listeners_respond]
          show (((s.setListener h (.discovery l')).notePublished l l').listeners).find? k = _
          rw [listeners_notePublished]
          exact hset _
  | recovery target matched =>
      simp only [hear]
      split
      · rfl
      · rw [listeners_delete]
        exact hset _
  | scripted label script =>
      have hissued : (s.setListener h (.scripted label script.tail)).fabric.Issued k := hk
      simp only [hear]
      rw [find?_listeners_takeTurn hissued]
      exact hset _

theorem find?_listeners_deliver_of_ne (hk : s.fabric.Issued k) {d : Delivery}
    (hne : k ≠ d.target) : (s.deliver d).listeners.find? k = s.listeners.find? k := by
  unfold deliver
  split
  · split
    · rfl
    · rename_i l _
      exact find?_listeners_hear_of_ne (s := s.note (.delivered d l.label?)) hk hne _ _
  · rfl

theorem find?_listeners_step? (hk : s.fabric.Issued k) (hen : s.fabric.isEnabled k = false)
    (h : s.step? = some s') : s'.listeners.find? k = s.listeners.find? k := by
  obtain ⟨d, fabric, hn, rfl⟩ := exists_deliver_of_step? h
  have hrest := (Fabric.next?_eq_some hn).2
  have hissued : fabric.Issued k := by
    rw [hrest]
    exact hk
  by_cases htarget : k = d.target
  · have hnobody : ({ s with fabric } : Site).fabric.isEnabled d.target = false := by
      show fabric.isEnabled d.target = false
      rw [hrest, ← htarget]
      exact hen
    unfold deliver
    rw [if_neg (by rw [hnobody]; exact Bool.false_ne_true)]
  · exact find?_listeners_deliver_of_ne (s := { s with fabric }) hissued htarget

/-- Whatever is done, the listener of a participant that takes no part stays as it is. -/
theorem Pace.find?_listeners (h : Pace s s') (hk : s.fabric.Issued k)
    (hen : s.fabric.isEnabled k = false) : s'.listeners.find? k = s.listeners.find? k := by
  cases h with
  | perform c => exact find?_listeners_perform hk c
  | create domain profile => exact find?_listeners_create hk domain profile _
  | close target => rw [listeners_close]
  | delete target => rw [listeners_delete]
  | deliver h => exact find?_listeners_step? hk hen h
  | keep => rfl
  | tell => rfl

theorem Paces.find?_listeners (h : Paces s s') (hk : s.fabric.Issued k)
    (hen : s.fabric.isEnabled k = false) : s'.listeners.find? k = s.listeners.find? k := by
  induction h with
  | refl => rfl
  | tail hrow hpace ih =>
      have hlater := (Paces.moves hrow).isLater
      rw [hpace.find?_listeners (hlater.issued hk) (hlater.isEnabled_eq_false hk hen), ih]

end Site

end Rendezvous
