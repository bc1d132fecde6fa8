import Rendezvous.Proofs.SiteSteps

/-!
# What listeners do with what they hear

A delivery concerns the listener of one participant. A listener is quiet if it asks
nothing of the fabric but what can be seen of it; as long as only quiet listeners hear
anything, deliveries leave every member as it is.
-/

namespace Rendezvous

theorem DiscoveryListener.registry_receive (l : DiscoveryListener) (n : Notification) :
    (l.receive n).1.registry = l.registry := by
  unfold receive
  split
  · rfl
  · split
    · split <;> rfl
    · rfl

theorem DiscoveryListener.binding_receive {l l' : DiscoveryListener} {n : Notification}
    {call : Call} (h : l.receive n = (l', some call)) :
    l.registry.binding call.event.category = some call.binding := by
  unfold receive at h
  split at h
  · simp at h
  · split at h
    · simp at h
    · rename_i hb
      simp only [Prod.mk.injEq, Option.some.injEq] at h
      rw [← h.2]
      exact hb

theorem DiscoveryListener.registry_settle (l : DiscoveryListener) (response : Response) :
    (l.settle response).registry = l.registry := by
  cases response <;> rfl

namespace Site

theorem listeners_notePublished (s : Site) (before after : DiscoveryListener) :
    (s.notePublished before after).listeners = s.listeners := by
  unfold notePublished
  split
  · split <;> rfl
  · rfl

/-- The listener of another participant is left alone. -/
theorem find?_listeners_takeIn_of_ne (s : Site) {h k : Handle} (hne : k ≠ h) (l : Listener)
    (n : Notification) : (s.takeIn h l n).listeners.find? k = s.listeners.find? k := by
  have hset : ∀ l', (s.setListener h l').listeners.find? k = s.listeners.find? k := by
    intro l'
    rw [setListener, OrderedMap.find?_insert, if_neg hne]
  cases l with
  | discovery l =>
      rcases hr : l.receive n with ⟨l', call⟩
      simp only [takeIn, hr]
      cases call with
      | none => rw [listeners_notePublished, hset]
      | some call =>
          simp only [note]
          rw [listeners_notePublished, hset]
  | recovery target matched =>
      simp only [takeIn]
      split
      · rfl
      · exact hset _
  | scripted label script => exact hset _

theorem find?_listeners_takeIn_discovery (s : Site) (h : Handle) (l : DiscoveryListener)
    (n : Notification) :
    (s.takeIn h (.discovery l) n).listeners.find? h = some (.discovery (l.receive n).1) := by
  rcases hr : l.receive n with ⟨l', call⟩
  simp only [takeIn, hr]
  cases call with
  | none => rw [listeners_notePublished, setListener, OrderedMap.find?_insert, if_pos rfl]
  | some call =>
      simp only [note]
      rw [listeners_notePublished, setListener, OrderedMap.find?_insert, if_pos rfl]

/-! ## Quiet listeners -/

end Site

inductive Command.IsIdle : Command → Prop
  | contains (h : Handle) : IsIdle (.contains h)
  | isEnabled (h : Handle) : IsIdle (.isEnabled h)
  | count (domain : UInt32) : IsIdle (.count domain)
  | panic : IsIdle .panic

/-- Whether a listener asks nothing of the fabric but what can be seen of it. -/
def Listener.IsQuiet : Listener → Prop
  | .discovery l => ∀ category b, l.registry.binding category = some b →
      b.callback.response ≠ .deletes
  | .recovery _ _ => False
  | .scripted _ script => ∀ turn ∈ script, ∀ c ∈ turn, c.IsIdle

instance : DecidablePred Command.IsIdle
  | .contains h => isTrue (.contains h)
  | .isEnabled h => isTrue (.isEnabled h)
  | .count domain => isTrue (.count domain)
  | .panic => isTrue .panic
  | .addPeer _ _ => isFalse nofun
  | .create _ _ _ _ => isFalse nofun
  | .addEntity _ _ _ _ _ _ => isFalse nofun
  | .removeEntity _ _ => isFalse nofun
  | .updateQos _ => isFalse nofun
  | .close _ => isFalse nofun
  | .delete _ => isFalse nofun
  | .failNextCreate => isFalse nofun
  | .refuseDeletes _ => isFalse nofun

instance : DecidablePred Listener.IsQuiet
  | .discovery l =>
      decidable_of_iff (∀ category ∈ Category.all, ∀ b ∈ l.registry.binding category,
        b.callback.response ≠ .deletes) <| by
          simp only [Listener.IsQuiet, Category.mem_all, true_implies, Option.mem_def]
  | .recovery _ _ => isFalse id
  | .scripted _ script => inferInstanceAs (Decidable (∀ turn ∈ script, ∀ c ∈ turn, c.IsIdle))

namespace Site

theorem perform_of_isIdle {c : Command} (hc : c.IsIdle) (s : Site) : (s.perform c).1 = s := by
  cases hc <;> rfl

theorem takeTurn_of_isIdle {turn : List Command} (hturn : ∀ c ∈ turn, c.IsIdle) (s : Site)
    (label : String) :
    (s.takeTurn label turn).fabric = s.fabric ∧
      (s.takeTurn label turn).listeners = s.listeners := by
  induction turn generalizing s with
  | nil => exact ⟨rfl, rfl⟩
  | cons c turn ih =>
      by_cases hpanic : c = .panic
      · subst hpanic
        exact ⟨rfl, rfl⟩
      · have hidle := hturn c List.mem_cons_self
        have hrest := fun c' hc' => hturn c' (List.mem_cons_of_mem _ hc')
        have hsame := perform_of_isIdle hidle s
        obtain ⟨hfabric, hlisteners⟩ :=
          ih hrest ((s.perform c).1.note (.replied label (s.perform c).2))
        simp only [takeTurn]
        rw [hfabric, hlisteners, hsame]
        exact ⟨rfl, rfl⟩

theorem respond_of_ne_deletes {call : Call} (h : call.binding.callback.response ≠ .deletes)
    (s : Site) : s.respond call = s := by
  unfold respond
  split
  · rename_i heq
    rw [heq] at h
    exact absurd rfl h
  · rfl

structure Heard (h : Handle) (s s' : Site) : Prop where
  fabric : s'.fabric = s.fabric
  other : ∀ {k}, k ≠ h → s'.listeners.find? k = s.listeners.find? k
  own : ∃ l, s'.listeners.find? h = some l ∧ l.IsQuiet

theorem heard_setListener (s : Site) (h : Handle) {l : Listener} (hl : l.IsQuiet) :
    s.Heard h (s.setListener h l) := by
  refine ⟨rfl, fun {k} hne => ?_, l, ?_, hl⟩
  · rw [setListener, OrderedMap.find?_insert, if_neg hne]
  · rw [setListener, OrderedMap.find?_insert, if_pos rfl]

namespace Heard

variable {s s' s'' : Site} {h : Handle}

theorem of_same (hheard : s.Heard h s') (hfabric : s''.fabric = s'.fabric)
    (hlisteners : s''.listeners = s'.listeners) : s.Heard h s'' := by
  refine ⟨hfabric.trans hheard.fabric, fun hne => ?_, ?_⟩
  · rw [hlisteners]
    exact hheard.other hne
  · rw [hlisteners]
    exact hheard.own

theorem settle (hheard : s.Heard h s') (call : Call) : s.Heard h (s'.settle h call) := by
  obtain ⟨l, hl, hquiet⟩ := hheard.own
  refine ⟨hheard.fabric, fun {k} hne => ?_, ?_⟩
  · simp only [Site.settle, OrderedMap.find?_modify]
    rw [if_neg hne]
    exact hheard.other hne
  · simp only [Site.settle, OrderedMap.find?_modify]
    rw [if_pos trivial, hl]
    cases l with
    | discovery l =>
        refine ⟨_, rfl, fun category b hb => ?_⟩
        rw [DiscoveryListener.registry_settle] at hb
        exact hquiet category b hb
    | recovery target matched => exact ⟨_, rfl, hquiet⟩
    | scripted label script => exact ⟨_, rfl, hquiet⟩

end Heard

theorem heard_hear_discovery {l : DiscoveryListener} (hl : (Listener.discovery l).IsQuiet)
    (s : Site) (h : Handle) (n : Notification) : s.Heard h (s.hear h (.discovery l) n) := by
  rcases hr : l.receive n with ⟨l', call⟩
  have hregistry : l'.registry = l.registry := by
    rw [← l.registry_receive n, hr]
  have hquiet : (Listener.discovery l').IsQuiet := by
    intro category b hb
    exact hl category b (hregistry ▸ hb)
  have hpublished : s.Heard h ((s.setListener h (.discovery l')).notePublished l l') :=
    (heard_setListener s h hquiet).of_same (fabric_notePublished _ l l')
      (listeners_notePublished _ l l')
  simp only [hear, hr]
  cases call with
  | none => exact hpublished
  | some call =>
      have hbound := DiscoveryListener.binding_receive hr
      simp only [invoke]
      rw [respond_of_ne_deletes (hl _ _ hbound)]
      have hcalled : s.Heard h (((s.setListener h (.discovery l')).notePublished l l').note
          (sighting h call)) := hpublished.of_same rfl rfl
      exact hcalled.settle call

theorem heard_hear_scripted {label : String} {script : List (List Command)}
    (hl : (Listener.scripted label script).IsQuiet) (s : Site) (h : Handle) (n : Notification) :
    s.Heard h (s.hear h (.scripted label script) n) := by
  have hturn : ∀ c ∈ script.head?.getD [], c.IsIdle := by
    cases script with
    | nil => nofun
    | cons turn script => exact hl turn List.mem_cons_self
  have hquiet : (Listener.scripted label script.tail).IsQuiet :=
    fun turn hmem => hl turn (List.mem_of_mem_tail hmem)
  obtain ⟨hfabric, hlisteners⟩ :=
    takeTurn_of_isIdle hturn (s.setListener h (.scripted label script.tail)) label
  exact (heard_setListener s h hquiet).of_same hfabric hlisteners

theorem heard_hear {l : Listener} (hl : l.IsQuiet) (s : Site) (h : Handle) (n : Notification) :
    s.Heard h (s.hear h l n) := by
  cases l with
  | discovery l => exact heard_hear_discovery hl s h n
  | recovery target matched => exact hl.elim
  | scripted label script => exact heard_hear_scripted hl s h n

/-- Whether every participant that takes part, one excepted, has a quiet listener or none. -/
def QuietBut (s : Site) (except : Option Handle) : Prop :=
  ∀ k l, some k ≠ except → s.fabric.isEnabled k = true → s.listeners.find? k = some l → l.IsQuiet

/-- Whoever takes part afterwards took part before, and has the same listener. -/
theorem QuietBut.transfer {s s' : Site} {except except' : Option Handle} (hq : s.QuietBut except)
    (h : ∀ k, some k ≠ except' → s'.fabric.isEnabled k = true →
      some k ≠ except ∧ s.fabric.isEnabled k = true ∧
        s'.listeners.find? k = s.listeners.find? k) : s'.QuietBut except' := by
  intro k l hne hen hl
  obtain ⟨hother, hbefore, hsame⟩ := h k hne hen
  exact hq k l hother hbefore (hsame ▸ hl)

/-- A quiet listener that a delivery is made to leaves the members alone. -/
theorem QuietBut.deliver {s : Site} {except : Option Handle} (hq : s.QuietBut except)
    {d : Delivery} {fabric : Fabric} (hn : s.fabric.next? = some (d, fabric))
    (hne : some d.target ≠ except) :
    ({ s with fabric }.deliver d).fabric = fabric ∧ ({ s with fabric }.deliver d).QuietBut except ∧
      ∀ k, (k = d.target → s.fabric.isEnabled k = false) →
        ({ s with fabric }.deliver d).listeners.find? k = s.listeners.find? k := by
  have hmembers : fabric.members = s.fabric.members := by
    rw [(Fabric.next?_eq_some hn).2]
  have hen : ∀ k, fabric.isEnabled k = s.fabric.isEnabled k :=
    fun k => Fabric.isEnabled_congr (by rw [hmembers])
  have hsame : { s with fabric }.QuietBut except :=
    hq.transfer fun k hne hken => ⟨hne, (hen k).symm.trans hken, rfl⟩
  unfold Site.deliver
  split
  · rename_i htarget
    split
    · exact ⟨rfl, hsame, fun _ _ => rfl⟩
    · rename_i l hl
      have hquiet := hsame d.target l hne htarget hl
      obtain ⟨hfabric, hother, hown⟩ :=
        heard_hear hquiet ({ s with fabric }.note (.delivered d l.label?)) d.target d.notification
      refine ⟨hfabric, fun k l' hk hken hl' => ?_, fun k hk => ?_⟩
      · rw [hfabric] at hken
        by_cases heq : k = d.target
        · subst heq
          obtain ⟨l'', hl'', hquiet''⟩ := hown
          rw [hl''] at hl'
          cases hl'
          exact hquiet''
        · rw [hother heq] at hl'
          exact hsame k l' hk hken hl'
      · by_cases heq : k = d.target
        · rw [← heq] at htarget
          have hout := hk heq
          rw [← hen, htarget] at hout
          cases hout
        · exact hother heq
  · exact ⟨rfl, hsame, fun _ _ => rfl⟩

/-- As long as all listeners are quiet, deliveries leave every member as it is, and the
listeners of those who take no part. -/
theorem QuietBut.drains {s s' : Site} (hq : s.QuietBut none) (h : s.Drains s') :
    s'.fabric.members = s.fabric.members ∧
      ∀ k, s.fabric.isEnabled k = false → s'.listeners.find? k = s.listeners.find? k := by
  induction h with
  | refl => exact ⟨rfl, fun _ _ => rfl⟩
  | @head s _ _ hstep _ ih =>
      obtain ⟨d, fabric, hn, rfl⟩ := exists_deliver_of_step? hstep
      obtain ⟨hfabric, hq', hlisteners⟩ := hq.deliver hn (Option.some_ne_none _)
      obtain ⟨hmembers, hrest⟩ := ih hq'
      have hsame : fabric.members = s.fabric.members := by
        rw [(Fabric.next?_eq_some hn).2]
      refine ⟨?_, fun k hk => ?_⟩
      · rw [hmembers, hfabric, hsame]
      · have hk' : ({ s with fabric }.deliver d).fabric.isEnabled k = false := by
          rw [hfabric, Fabric.isEnabled_congr (f := s.fabric) (by rw [hsame]), hk]
        rw [hrest k hk', hlisteners k fun _ => hk]

end Site

end Rendezvous
