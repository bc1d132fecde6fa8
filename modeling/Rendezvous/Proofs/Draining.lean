import Rendezvous.Proofs.Launching

/-!
# What draining delivers

The listeners of the program itself act on a fabric in one way only: they delete a
participant. A deletion takes away what it may add to the queue, so what is on its way
together with what all departures would announce bounds the deliveries to come. Main
statement: draining makes finitely many deliveries, one at a time, and then none is due;
they are what was on its way and, after it, what those that were deleted meanwhile
announced.
-/

namespace Rendezvous

namespace Fabric

variable {f f' : Fabric} {k : Handle} {m : Member}

/-! ## What departures would announce -/

/-- How many notifications the departure of a member puts on their way, at most. -/
def echo (f : Fabric) (m : Member) : Nat :=
  if m.enabled then
    ((f.present m.domain).filter (·.2.listens)).length * (m.announced.length + 1)
  else 0

/-- What is on its way, and what would be if all members left. -/
def outstanding (f : Fabric) : Nat := f.queue.size + f.members.total f.echo

theorem length_farewell (m : Member) (k : Handle) :
    (m.farewell k).length = m.announced.length + 1 := by
  simp [Member.farewell, Member.entities]

theorem length_audience_le (f : Fabric) (domain : UInt32) (k : Handle) :
    (f.audience domain k).length ≤ ((f.present domain).filter (·.2.listens)).length := by
  rw [audience, List.length_map]
  refine (List.monotone_filter_right _ fun e he => ?_).length_le
  exact (Bool.and_eq_true_iff.1 he).1

/-- Where members are gone, no departure is told to more of them. -/
theorem echo_le (hsub : f'.members.entries.Sublist f.members.entries) (m : Member) :
    f'.echo m ≤ f.echo m := by
  rw [echo, echo]
  split
  · exact Nat.mul_le_mul_right _ ((hsub.filter _).filter _).length_le
  · exact Nat.le_refl 0

/-- What a departure puts on its way was outstanding before. -/
theorem outstanding_change_le (hm : f.members.find? k = some m) :
    (f.change k m none (m.farewell k)).outstanding ≤ f.outstanding := by
  obtain ⟨f', hf'⟩ : ∃ f', f.change k m none (m.farewell k) = f' := ⟨_, rfl⟩
  have hmembers : f'.members = f.members.alter k fun _ => none := by rw [← hf', members_change]
  have hsub : f'.members.entries.Sublist f.members.entries :=
    hmembers ▸ f.members.sublist_alter_none k
  have hqueue : f'.queue.size ≤ f.queue.size + f.echo m := by
    have htold := queue_change f k m none (m.farewell k)
    rw [hf'] at htold
    rw [Queue.size_eq_length_toList, htold, List.length_append, ← Queue.size_eq_length_toList, echo]
    refine Nat.add_le_add_left ?_ _
    split
    · simp only [List.length_flatMap, List.length_map, length_farewell, List.map_const',
        List.sum_replicate_nat]
      exact Nat.mul_le_mul_right _ (Nat.le_trans (length_audience_le _ _ _)
        ((hsub.filter _).filter _).length_le)
    · exact Nat.le_refl 0
  have htotal := OrderedMap.total_alter f.echo f.members k fun _ => none
  rw [← hmembers, hm] at htotal
  simp only [OrderedMap.weigh, Option.map_some, Option.map_none, Option.getD_some,
    Option.getD_none] at htotal
  have hless := OrderedMap.total_le_total (echo_le hsub) f'.members
  rw [hf', outstanding, outstanding]
  omega

/-! ## One deletion after the other -/

/-- Several participants deleted in turn, with no deletion refused. -/
inductive Deletes : Fabric → List Handle → Fabric → Prop
  | none (f : Fabric) : Deletes f [] f
  | next {f f₁ f' : Fabric} {k : Handle} {gone : List Handle} (hk : f.delete k = .ok f₁)
      (h : Deletes f₁ gone f') : Deletes f (k :: gone) f'

variable {gone : List Handle}

theorem Deletes.outstanding_le (h : f.Deletes gone f') : f'.outstanding ≤ f.outstanding := by
  induction h with
  | none f => exact Nat.le_refl _
  | next hk _ ih =>
      obtain ⟨_, m, hm, rfl⟩ := delete_eq_ok hk
      exact Nat.le_trans ih (outstanding_change_le hm)

/-- What is on its way stays so, ahead of what deletions announce. -/
theorem Deletes.queue_grows (h : f.Deletes gone f') : f.queue.toList <+: f'.queue.toList := by
  induction h with
  | none f => exact List.prefix_rfl
  | next hk _ ih =>
      obtain ⟨_, m, _, rfl⟩ := delete_eq_ok hk
      exact (queue_change_grows _ _ _ _ _).trans ih

theorem Deletes.eq_of_refuses (h : f.Deletes gone f') (href : f.refuseDeletes = true) :
    f' = f := by
  cases h with
  | none => rfl
  | next hk =>
      rw [(delete_eq_ok hk).1] at href
      cases href

/-- Whether a fabric is another one, but that some deliveries are still due before its own. -/
structure Owes (ds : List Delivery) (f f' : Fabric) : Prop where
  members : f.members = f'.members
  refuseDeletes : f.refuseDeletes = f'.refuseDeletes
  queue : f.queue.toList = ds ++ f'.queue.toList

variable {ds : List Delivery} {g : Fabric}

theorem owes_nil (f : Fabric) : Owes [] f f := ⟨rfl, rfl, rfl⟩

theorem Owes.next {d : Delivery} (h : Owes ds f f') (hn : f'.next? = some (d, g)) :
    Owes (ds ++ [d]) f g := by
  obtain ⟨hqueue, heq⟩ := next?_eq_some hn
  refine ⟨h.members.trans (by rw [heq]), h.refuseDeletes.trans (by rw [heq]), ?_⟩
  rw [h.queue, hqueue, List.append_assoc, List.singleton_append]

/-- What a deletion announces comes last, whatever is due before. -/
theorem Owes.delete (h : Owes ds f f') (hk : f'.delete k = .ok g) :
    ∃ f₁, f.delete k = .ok f₁ ∧ Owes ds f₁ g := by
  obtain ⟨haccepts, m, hm, rfl⟩ := delete_eq_ok hk
  rw [← h.refuseDeletes] at haccepts
  rw [← h.members] at hm
  have hmembers : (f.change k m none (m.farewell k)).members =
      (f'.change k m none (m.farewell k)).members := by
    rw [members_change, members_change, h.members]
  have haudience : (f.change k m none (m.farewell k)).audience m.domain k =
      (f'.change k m none (m.farewell k)).audience m.domain k := by
    rw [audience, audience, present, present, hmembers]
  refine ⟨_, delete_of_find? haccepts hm, hmembers, ?_, ?_⟩
  · rw [refuseDeletes_change, refuseDeletes_change, h.refuseDeletes]
  · rw [queue_change, queue_change, h.queue, haudience, List.append_assoc]

end Fabric

def Listener.IsOwn : Listener → Prop
  | .discovery _ => True
  | .recovery _ _ => True
  | .scripted _ _ => False

instance : DecidablePred Listener.IsOwn
  | .discovery _ => .isTrue trivial
  | .recovery _ _ => .isTrue trivial
  | .scripted _ _ => .isFalse id

namespace Site

variable {s s' : Site} {k : Handle}

/-- Whether all who take part are heard for by listeners of the program itself. -/
def OwnListeners (s : Site) : Prop :=
  ∀ k l, s.fabric.isEnabled k = true → s.listeners.find? k = some l → l.IsOwn

/-! ## What own listeners do -/

theorem fabric_delete_cases (s : Site) (k : Handle) :
    (s.delete k).1.fabric = s.fabric ∨ s.fabric.delete k = .ok (s.delete k).1.fabric := by
  unfold delete
  split
  · rename_i fabric hdelete
    exact .inr hdelete
  · exact .inl rfl

/-- An own listener deletes one participant at most, and does nothing else to the fabric. -/
theorem hear_cases_of_isOwn {l : Listener} (hl : l.IsOwn) (s : Site) (h : Handle)
    (n : Notification) :
    (s.hear h l n).fabric = s.fabric ∨ ∃ k, (s.hear h l n).fabric = (s.delete k).1.fabric := by
  cases l with
  | discovery l => exact (hear_discovery_cases s h l n).imp_right fun ⟨e, _, _, heq⟩ => ⟨_, heq⟩
  | recovery target matched =>
      simp only [hear]
      split
      · exact .inl rfl
      · exact .inr ⟨_, fabric_delete_congr (s.fabric_setListener h _) _⟩
  | scripted label script => exact hl.elim

theorem isOwn_of_hear {l : Listener} (hl : l.IsOwn) {h : Handle} {n : Notification} {l' : Listener}
    (hfind : (s.hear h l n).listeners.find? k = some l') :
    l'.IsOwn ∨ s.listeners.find? k = some l' := by
  have hset : ∀ own : Listener, own.IsOwn →
      (s.setListener h own).listeners.find? k = some l' →
        l'.IsOwn ∨ s.listeners.find? k = some l' := by
    intro own hown hfind
    rw [setListener, OrderedMap.find?_insert] at hfind
    split at hfind
    · cases hfind
      exact .inl hown
    · exact .inr hfind
  cases l with
  | discovery l =>
      rcases hr : l.receive n with ⟨l₁, call⟩
      simp only [hear, hr] at hfind
      cases call with
      | none =>
          simp only [listeners_notePublished] at hfind
          exact hset (.discovery l₁) trivial hfind
      | some call =>
          have hheard : (((s.setListener h (.discovery l₁)).notePublished l l₁).note
              (sighting h call) |>.respond call).listeners =
                (s.setListener h (.discovery l₁)).listeners := by
            rw [listeners_respond]
            exact listeners_notePublished _ _ _
          simp only [invoke, settle, hheard, OrderedMap.find?_modify] at hfind
          split at hfind
          · obtain ⟨own, hown, rfl⟩ := Option.map_eq_some_iff.1 hfind
            rw [setListener, OrderedMap.find?_insert, if_pos rfl] at hown
            cases hown
            exact .inl trivial
          · exact hset (.discovery l₁) trivial hfind
  | recovery target matched =>
      simp only [hear] at hfind
      split at hfind
      · exact .inr hfind
      · rw [listeners_delete] at hfind
        exact hset (.recovery target (matched + 1)) trivial hfind
  | scripted label script => exact hl.elim

/-- A delivery deletes one participant at most, and no listener comes to be that is not own. -/
theorem OwnListeners.deliver_cases (hown : s.OwnListeners) (d : Delivery) :
    (s.deliver d).OwnListeners ∧
      ((s.deliver d).fabric = s.fabric ∨ ∃ k, (s.deliver d).fabric = (s.delete k).1.fabric) := by
  unfold deliver
  split
  · rename_i hen
    split
    · exact ⟨hown, .inl rfl⟩
    · rename_i l hl
      have hself := hown _ _ hen hl
      obtain ⟨noted, hnoted⟩ : ∃ noted, s.note (.delivered d l.label?) = noted := ⟨_, rfl⟩
      have hfabric : noted.fabric = s.fabric := hnoted ▸ rfl
      have hlisteners : noted.listeners = s.listeners := hnoted ▸ rfl
      have hcases := hear_cases_of_isOwn hself noted d.target d.notification
      simp only [hfabric, fabric_delete_congr hfabric] at hcases
      rw [hnoted]
      refine ⟨fun k l' hen' hl' => ?_, hcases⟩
      have hbefore : s.fabric.isEnabled k = true := by
        rcases hcases with hsame | ⟨j, hdeleted⟩
        · rwa [hsame] at hen'
        · exact isEnabled_of_delete (hdeleted ▸ hen')
      exact (isOwn_of_hear hself hl').elim id fun h => hown k l' hbefore (hlisteners ▸ h)
  · exact ⟨hown, .inl rfl⟩

/-! ## Row by row -/

/-- The deliveries made one at a time, each taken from the queue when it is due. -/
inductive Makes : Site → List Delivery → Site → Prop
  | none (s : Site) : Makes s [] s
  | next {s s' : Site} {d : Delivery} {fabric : Fabric} {ds : List Delivery}
      (hn : s.fabric.next? = some (d, fabric))
      (h : Makes ({ s with fabric }.deliver d) ds s') : Makes s (d :: ds) s'

theorem exists_makes_drain (s : Site) : ∃ ds, s.Makes ds s.drain := by
  fun_induction drain s with
  | case1 s hend => exact ⟨[], .none s⟩
  | case2 s s' hstep ih =>
      obtain ⟨⟨d, fabric⟩, hn, rfl⟩ := Option.map_eq_some_iff.1 hstep
      obtain ⟨ds, hmakes⟩ := ih
      exact ⟨d :: ds, .next hn hmakes⟩

/-- There is no choice in what is delivered, only in when to stop. -/
theorem Makes.isPrefix {ds ds' : List Delivery} {s₁ s₂ : Site} (h : s.Makes ds s₁)
    (hend : s₁.fabric.next? = .none) (h' : s.Makes ds' s₂) : ds' <+: ds := by
  induction h generalizing ds' with
  | none s =>
      cases h' with
      | none => exact List.prefix_rfl
      | next hn =>
          rw [hend] at hn
          cases hn
  | next hn _ ih =>
      cases h' with
      | none => exact List.nil_prefix
      | next hn' h' =>
          rw [hn] at hn'
          cases hn'
          exact List.cons_prefix_cons.2 ⟨rfl, ih hend h'⟩

/-- What is delivered was on its way, or is what the deleted ones announce. -/
theorem Makes.deletes {ds before : List Delivery} {f : Fabric} (h : s.Makes ds s')
    (hown : s.OwnListeners) (hf : f.Owes before s.fabric) :
    ∃ gone f', f.Deletes gone f' ∧ f'.Owes (before ++ ds) s'.fabric := by
  induction h generalizing f before with
  | none s => exact ⟨[], f, .none f, by rwa [List.append_nil]⟩
  | @next s s' d fabric ds hn _ ih =>
      have hsame : ({ s with fabric } : Site).OwnListeners := by
        intro k l hen hl
        have hbefore : fabric.isEnabled k = s.fabric.isEnabled k :=
          Fabric.isEnabled_congr (by rw [(Fabric.next?_eq_some hn).2])
        exact hown k l (hbefore ▸ hen) hl
      have hdue := hf.next hn
      have hrow : before ++ d :: ds = before ++ [d] ++ ds := by
        rw [List.append_assoc, List.singleton_append]
      obtain ⟨hnext, hcases⟩ := hsame.deliver_cases d
      rcases hcases with hstill | ⟨k, hdeleted⟩
      · rw [hrow]
        exact ih hnext (hstill ▸ hdue)
      · rcases fabric_delete_cases { s with fabric } k with hstill | hdelete
        · rw [hrow]
          exact ih hnext (hdeleted.trans hstill ▸ hdue)
        · rw [← hdeleted] at hdelete
          obtain ⟨f₁, hfirst, hdue⟩ := hdue.delete hdelete
          obtain ⟨gone, f', hrest, howes⟩ := ih hnext hdue
          exact ⟨k :: gone, f', .next hfirst hrest, hrow ▸ howes⟩

/-- Draining makes finitely many deliveries, one at a time, and none is due then; nor can any
other row of deliveries go on for longer. If the listeners are the program's own, what is
delivered is what was on its way, followed by what those that were deleted announced. -/
theorem drain_delivers (s : Site) :
    ∃ ds, s.Makes ds s.drain ∧ s.drain.fabric.queue.toList = [] ∧
      (∀ ds' s', s.Makes ds' s' → ds' <+: ds) ∧
      (s.OwnListeners → ∃ gone f, s.fabric.Deletes gone f ∧
        f.members = s.drain.fabric.members ∧ ds = f.queue.toList ∧
        s.fabric.queue.toList <+: ds ∧ ds.length ≤ s.fabric.outstanding ∧
        (s.fabric.refuseDeletes = true → ds = s.fabric.queue.toList)) := by
  obtain ⟨ds, hmakes⟩ := s.exists_makes_drain
  have hend := s.queue_drain
  refine ⟨ds, hmakes, hend, fun ds' s' => hmakes.isPrefix (Fabric.next?_eq_none_iff.2 hend), ?_⟩
  intro hown
  obtain ⟨gone, f, hdeletes, howes⟩ := hmakes.deletes hown s.fabric.owes_nil
  have hqueue : ds = f.queue.toList := by rw [howes.queue, hend, List.append_nil, List.nil_append]
  refine ⟨gone, f, hdeletes, howes.members, hqueue, hqueue ▸ hdeletes.queue_grows, ?_, ?_⟩
  · rw [hqueue, ← Queue.size_eq_length_toList]
    exact Nat.le_trans (Nat.le_add_right _ _) hdeletes.outstanding_le
  · intro href
    rw [hqueue, hdeletes.eq_of_refuses href]

/-- Two participants with the server prefix, a recovery participant that is to delete them, and
a listener with a callback that deletes whoever is discovered. -/
def besieged : Site :=
  let deleting := Registry.empty.put .participantDiscovered
    (some ⟨.native "host" .deletes, "context"⟩)
  let s := ((new .empty ⟨1, [], 0⟩).join 1 ⟨Config.defaultServerPrefix, none, []⟩).1
  let s := (s.join 1 ⟨Config.defaultServerPrefix, none, []⟩).1
  let s := (s.create 1 ⟨Config.defaultRecoveryPrefix, none, []⟩
    (.recovery Config.defaultServerPrefix 0)).1
  (s.create 1 ⟨Config.defaultRecoveryPrefix, none, []⟩
    (.discovery (.new deleting (some (.new false))))).1

theorem besieged_delivers : besieged.OwnListeners ∧ besieged.fabric.queue.size = 6 ∧
    ∃ ds, besieged.Makes ds besieged.drain ∧ besieged.drain.fabric.queue.toList = [] ∧
      besieged.fabric.queue.toList <+: ds ∧ ds.length ≤ 14 := by
  have hall : besieged.listeners.entries.all (fun e => e.2.IsOwn) = true := by cbv
  have hown : besieged.OwnListeners := fun k l _ hl =>
    of_decide_eq_true (List.all_eq_true.1 hall _ (OrderedMap.find?_eq_some_iff.1 hl))
  have hbound : besieged.fabric.outstanding = 14 := by cbv
  obtain ⟨ds, hmakes, hend, -, hdeliveries⟩ := drain_delivers besieged
  obtain ⟨gone, f, -, -, -, hfirst, hlength, -⟩ := hdeliveries hown
  exact ⟨hown, by cbv, ds, hmakes, hend, hfirst, hbound ▸ hlength⟩

end Site

end Rendezvous
