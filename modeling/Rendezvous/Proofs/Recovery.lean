import Rendezvous.Proofs.LiveGraph
import Rendezvous.Proofs.Presence

/-!
# What a recovery does

A context that is asked to stop a server which it does not run joins the domain with a
recovery participant. All that carry the server prefix there are on their way to it as it
joins; each delivery of one of them counts it and deletes it, and what that makes others
say to it does not matter any more. Main statement: if nobody else meddles, a recovery
deletes exactly the participants of the domain that carry the server prefix, reports how
many they were, and leaves everything else as it was, but for the record of the domain.
-/

namespace Rendezvous

namespace Fabric

/-- The enabled participants of a domain that carry a prefix. -/
def carriers (f : Fabric) (domain : UInt32) (p : GuidPrefix) : List Handle :=
  ((f.present domain).filter (·.2.profile.guidPrefix == p)).map (·.1)

theorem mem_carriers {f : Fabric} {domain : UInt32} {p : GuidPrefix} {k : Handle} :
    k ∈ f.carriers domain p ↔ ∃ m, f.members.find? k = some m ∧ m.enabled = true ∧
      m.domain = domain ∧ m.profile.guidPrefix = p := by
  simp only [carriers, List.mem_map, List.mem_filter, Prod.exists, beq_iff_eq]
  constructor
  · rintro ⟨k', m, ⟨hmem, hp⟩, rfl⟩
    obtain ⟨hm, hen, hdomain⟩ := mem_present.1 hmem
    exact ⟨m, hm, hen, hdomain, hp⟩
  · rintro ⟨m, hm, hen, hdomain, hp⟩
    exact ⟨k, m, ⟨mem_present.2 ⟨hm, hen, hdomain⟩, hp⟩, rfl⟩

theorem nodup_carriers (f : Fabric) (domain : UInt32) (p : GuidPrefix) :
    (f.carriers domain p).Nodup :=
  (f.nodup_present domain).sublist (List.filter_sublist.map _)

/-- The carriers of a prefix that a participant is still to discover. -/
def pending (f : Fabric) (p : GuidPrefix) (h : Handle) : List Handle :=
  (f.bound h).filterMap (Site.discovers? p)

theorem Sound.nextHandle_not_mem_carriers {f : Fabric} (hf : f.Sound) (domain : UInt32)
    (p : GuidPrefix) : f.nextHandle ∉ f.carriers domain p := by
  intro hmem
  obtain ⟨m, hm, _⟩ := mem_carriers.1 hmem
  exact f.not_issued_nextHandle (hf.member hm)

theorem Sound.find?_join_of_mem_carriers {f : Fabric} (hf : f.Sound) {domain : UInt32}
    {p : GuidPrefix} {k : Handle} (hk : k ∈ f.carriers domain p) (domain' : UInt32)
    (profile : Profile) : ∃ m, (f.join domain' profile true).1.members.find? k = some m := by
  obtain ⟨m, hm, _⟩ := mem_carriers.1 hk
  have hne : k ≠ f.nextHandle := by
    rintro rfl
    exact f.not_issued_nextHandle (hf.member hm)
  refine ⟨m, ?_⟩
  rw [members_join, OrderedMap.find?_insert, if_neg hne, hm]

theorem filterMap_introduction (p : GuidPrefix) (m : Member) (h : Handle) :
    (m.introduction h).filterMap (Site.discovers? p) =
      if m.profile.guidPrefix = p then [h] else [] := by
  have hentities : (m.entities.map (m.tell .discovered)).filterMap (Site.discovers? p) = [] := by
    refine List.filterMap_eq_nil_iff.2 fun n hn => ?_
    obtain ⟨e, _, rfl⟩ := List.mem_map.1 hn
    rfl
  rw [Member.introduction, List.filterMap_cons, hentities]
  by_cases hp : m.profile.guidPrefix = p <;> simp [Site.discovers?, Member.tellOf, hp]

theorem filterMap_farewell (p : GuidPrefix) (m : Member) (h : Handle) :
    (m.farewell h).filterMap (Site.discovers? p) = [] := by
  refine List.filterMap_eq_nil_iff.2 fun n hn => ?_
  rcases List.mem_append.1 hn with hn | hn
  · obtain ⟨e, _, rfl⟩ := List.mem_map.1 hn
    rfl
  · cases List.mem_singleton.1 hn
    rfl

theorem pending_join {f : Fabric} (hf : f.Sound) (domain : UInt32) (profile : Profile)
    (p : GuidPrefix) :
    (f.join domain profile true).1.pending p f.nextHandle = f.carriers domain p := by
  rw [pending, bound_join_nextHandle hf, carriers]
  induction f.present domain with
  | nil => rfl
  | cons e es ih =>
      rw [List.flatMap_cons, List.filterMap_append, ih, filterMap_introduction]
      by_cases hp : e.2.profile.guidPrefix = p <;> simp [hp]

theorem pending_change_farewell (f : Fabric) (k : Handle) (m : Member) (after : Option Member)
    (p : GuidPrefix) (h : Handle) :
    (f.change k m after (m.farewell k)).pending p h = f.pending p h := by
  rw [pending, bound_change, List.filterMap_append, pending]
  split
  · rw [filterMap_farewell, List.append_nil]
  · rw [List.filterMap_nil, List.append_nil]

end Fabric

namespace Site

/-! ## While the deliveries are made -/

/-- The site of a recovery that has deleted some of the carriers and has still to discover
the rest; all other members are as they were. -/
structure Recovering (members : OrderedMap Handle Member) (target : GuidPrefix)
    (scout : Handle) (killed rest : List Handle) (s : Site) : Prop where
  member : ∀ k, s.fabric.members.find? k = if k ∈ killed then none else members.find? k
  accepts : s.fabric.refuseDeletes = false
  listener : s.listeners.find? scout = some (.recovery target killed.length)
  quiet : s.QuietBut (some scout)
  pending : s.fabric.pending target scout = rest

section Recovering

variable {members : OrderedMap Handle Member} {target : GuidPrefix} {scout : Handle}
  {killed rest : List Handle} {s s' : Site}

theorem recovering_delete (hmember : ∀ k, s.fabric.members.find? k =
      if k ∈ killed then none else members.find? k)
    (haccepts : s.fabric.refuseDeletes = false)
    (hlistener : s.listeners.find? scout = some (.recovery target (killed.length + 1)))
    (hquiet : s.QuietBut (some scout)) (hpending : s.fabric.pending target scout = rest)
    {k : Handle} (hnot : k ∉ killed) {m : Member} (hm : members.find? k = some m) :
    (s.delete k).1.Recovering members target scout (killed ++ [k]) rest := by
  have hfind : s.fabric.members.find? k = some m := by
    rw [hmember, if_neg hnot, hm]
  simp only [delete, Fabric.delete_of_find? haccepts hfind]
  have hmembers : ∀ k', (s.fabric.change k m none (m.farewell k)).members.find? k' =
      if k' = k then none else s.fabric.members.find? k' := by
    intro k'
    rw [Fabric.members_change, OrderedMap.find?_alter]
  refine ⟨fun k' => ?_, ?_, ?_, hquiet.transfer fun k' hne hen => ⟨hne, ?_, rfl⟩, ?_⟩
  · rw [fabric_note, hmembers, hmember]
    by_cases hk : k' = k
    · rw [if_pos hk, if_pos (by simp [hk])]
    · have hiff : k' ∈ killed ++ [k] ↔ k' ∈ killed := by simp [hk]
      simp only [if_neg hk, hiff]
  · rw [fabric_note, Fabric.refuseDeletes_change]
    exact haccepts
  · rw [List.length_append]
    exact hlistener
  · rw [fabric_note] at hen
    obtain ⟨m', hm', hen'⟩ := Fabric.isEnabled_iff.1 hen
    rw [hmembers] at hm'
    by_cases hk : k' = k
    · rw [if_pos hk] at hm'
      cases hm'
    · rw [if_neg hk] at hm'
      exact Fabric.isEnabled_iff.2 ⟨m', hm', hen'⟩
  · rw [fabric_note, Fabric.pending_change_farewell]
    exact hpending

section Delivery

variable {d : Delivery} {fabric : Fabric}

theorem Recovering.elsewhere (h : s.Recovering members target scout killed rest)
    (hn : s.fabric.next? = some (d, fabric)) (htarget : d.target ≠ scout) :
    ({ s with fabric }.deliver d).Recovering members target scout killed rest := by
  have hrest := (Fabric.next?_eq_some hn).2
  have hne : some d.target ≠ some scout := fun heq => htarget (Option.some.inj heq)
  obtain ⟨hfabric, hquiet, hlisteners⟩ := h.quiet.deliver hn hne
  refine ⟨fun k => ?_, ?_, ?_, hquiet, ?_⟩
  · rw [hfabric, hrest]
    exact h.member k
  · rw [hfabric, hrest]
    exact h.accepts
  · rw [hlisteners scout fun heq => absurd heq.symm htarget]
    exact h.listener
  · have hbound := Fabric.bound_of_next? hn scout
    rw [if_neg htarget, List.nil_append] at hbound
    rw [hfabric, Fabric.pending, ← hbound]
    exact h.pending

variable (h : s.Recovering members target scout killed rest)
  (hscout : ∃ m, members.find? scout = some m ∧ m.enabled = true) (hout : scout ∉ killed)
  (hn : s.fabric.next? = some (d, fabric)) (htarget : d.target = scout)

include h hscout hout hn htarget

theorem Recovering.deliver_eq : ({ s with fabric }).deliver d =
    (({ s with fabric }).note (.delivered d (Listener.recovery target killed.length).label?)).hear
      scout (.recovery target killed.length) d.notification := by
  obtain ⟨m, hm, hmen⟩ := hscout
  have hen : fabric.isEnabled scout = true := by
    refine Fabric.isEnabled_iff.2 ⟨m, ?_, hmen⟩
    rw [(Fabric.next?_eq_some hn).2, h.member, if_neg hout, hm]
  simp only [deliver, htarget, hen, if_true, h.listener]

theorem Recovering.overhear (hdiscovers : discovers? target d.notification = none) :
    ({ s with fabric }.deliver d).Recovering members target scout killed rest := by
  have hmembers : fabric.members = s.fabric.members := by
    rw [(Fabric.next?_eq_some hn).2]
  rw [h.deliver_eq hscout hout hn htarget]
  simp only [hear, hdiscovers]
  refine ⟨fun k => ?_, ?_, h.listener, h.quiet.transfer fun k hne hen => ⟨hne, ?_, rfl⟩, ?_⟩
  · rw [fabric_note, hmembers]
    exact h.member k
  · rw [fabric_note, (Fabric.next?_eq_some hn).2]
    exact h.accepts
  · rw [fabric_note, Fabric.isEnabled_congr (f := s.fabric) (by rw [hmembers])] at hen
    exact hen
  · have hpending := h.pending
    rw [Fabric.pending, Fabric.bound_of_next? hn, if_pos htarget, List.singleton_append,
      List.filterMap_cons, hdiscovers] at hpending
    exact hpending

/-- A carrier is counted and deleted as it is heard of. -/
theorem Recovering.kill {k : Handle} (hdiscovers : discovers? target d.notification = some k)
    (hnot : k ∉ killed) {m : Member} (hm : members.find? k = some m) :
    ({ s with fabric }.deliver d).Recovering members target scout (killed ++ [k])
      (fabric.pending target scout) := by
  have hmembers : fabric.members = s.fabric.members := by
    rw [(Fabric.next?_eq_some hn).2]
  rw [h.deliver_eq hscout hout hn htarget]
  simp only [hear, hdiscovers]
  refine @recovering_delete members target scout killed (fabric.pending target scout) _
    (fun k' => ?_) ?_ ?_ (h.quiet.transfer fun k' hne hen => ⟨hne, ?_, ?_⟩) rfl k hnot m hm
  · rw [fabric_setListener, fabric_note, hmembers]
    exact h.member k'
  · rw [fabric_setListener, fabric_note, (Fabric.next?_eq_some hn).2]
    exact h.accepts
  · rw [setListener, OrderedMap.find?_insert, if_pos rfl]
  · rw [fabric_setListener, fabric_note,
      Fabric.isEnabled_congr (f := s.fabric) (by rw [hmembers])] at hen
    exact hen
  · rw [setListener, OrderedMap.find?_insert, if_neg fun heq => hne (congrArg some heq)]
    rfl

end Delivery

/-- Each delivery leaves the recovery as it was, or one carrier further. -/
theorem Recovering.step (h : s.Recovering members target scout killed rest)
    (hscout : ∃ m, members.find? scout = some m ∧ m.enabled = true)
    (hout : scout ∉ killed ++ rest) (hnodup : (killed ++ rest).Nodup)
    (hthere : ∀ k ∈ killed ++ rest, ∃ m, members.find? k = some m)
    (hstep : s.step? = some s') :
    ∃ killed' rest', killed' ++ rest' = killed ++ rest ∧
      s'.Recovering members target scout killed' rest' := by
  obtain ⟨d, fabric, hn, rfl⟩ := exists_deliver_of_step? hstep
  have hscoutOut : scout ∉ killed := fun hmem => hout (List.mem_append_left _ hmem)
  by_cases htarget : d.target = scout
  · cases hdiscovers : discovers? target d.notification with
    | none => exact ⟨killed, rest, rfl, h.overhear hscout hscoutOut hn htarget hdiscovers⟩
    | some k =>
        have hrest : rest = k :: fabric.pending target scout := by
          rw [← h.pending, Fabric.pending, Fabric.bound_of_next? hn, if_pos htarget,
            List.singleton_append, List.filterMap_cons, hdiscovers]
          rfl
        have hnot : k ∉ killed := by
          intro hkilled
          refine (List.nodup_append.1 hnodup).2.2 k hkilled k ?_ rfl
          simp [hrest]
        obtain ⟨m, hm⟩ := hthere k (by simp [hrest])
        refine ⟨killed ++ [k], fabric.pending target scout, ?_,
          h.kill hscout hscoutOut hn htarget hdiscovers hnot hm⟩
        rw [hrest, List.append_assoc]
        rfl
  · exact ⟨killed, rest, rfl, h.elsewhere hn htarget⟩

theorem Recovering.drain (h : s.Recovering members target scout killed rest)
    (hscout : ∃ m, members.find? scout = some m ∧ m.enabled = true)
    (hout : scout ∉ killed ++ rest) (hnodup : (killed ++ rest).Nodup)
    (hthere : ∀ k ∈ killed ++ rest, ∃ m, members.find? k = some m) :
    s.drain.Recovering members target scout (killed ++ rest) [] := by
  -- Carriers move from the rest to the killed; the row of both stays what it was.
  fun_induction Site.drain s generalizing killed rest with
  | case1 s hend =>
      have hempty : rest = [] := by
        rw [← h.pending, Fabric.pending, Fabric.bound, step?_eq_none_iff.1 hend]
        rfl
      rw [hempty, List.append_nil]
      rw [hempty] at h
      exact h
  | case2 s s' hstep ih =>
      obtain ⟨killed', rest', hsplit, h'⟩ := h.step hscout hout hnodup hthere hstep
      rw [← hsplit] at hout hnodup hthere ⊢
      exact ih h' hout hnodup hthere

end Recovering

theorem recovering_create {s : Site} (hs : s.Sound) (haccepts : s.fabric.refuseDeletes = false)
    (hcreate : s.fabric.failNextCreate = false) (hquiet : s.QuietBut none) (domain : UInt32)
    (profile : Profile) (target : GuidPrefix) :
    (s.create domain profile (.recovery target 0)).1.Recovering
      (s.fabric.join domain profile true).1.members target s.fabric.nextHandle []
      (s.fabric.carriers domain target) := by
  rw [create_of_accepted hcreate]
  refine ⟨fun k => rfl, haccepts, ?_,
    hquiet.transfer fun k hne hen => ⟨Option.some_ne_none k, ?_, ?_⟩, ?_⟩
  · exact (OrderedMap.find?_insert _ _ _ _).trans (if_pos rfl)
  · have hk : k ≠ s.fabric.nextHandle := fun heq => hne (congrArg some heq)
    have hsame : (s.fabric.join domain profile true).1.members.find? k =
        s.fabric.members.find? k := by
      rw [Fabric.members_join, OrderedMap.find?_insert, if_neg hk]
    exact (Fabric.isEnabled_congr hsame).symm.trans hen
  · exact (OrderedMap.find?_insert _ _ _ _).trans (if_neg fun heq => hne (congrArg some heq))
  · exact Fabric.pending_join hs.fabric domain profile target

/-- The recovery participant is deleted like any other, and nobody else is the wiser. -/
theorem Recovering.delete {members : OrderedMap Handle Member} {target : GuidPrefix}
    {scout : Handle} {killed : List Handle} {s s' : Site}
    (h : s.Recovering members target scout killed []) (hout : scout ∉ killed)
    (hscout : ∃ m, members.find? scout = some m) (hdrains : Drains (s.delete scout).1 s') :
    (∀ k, s'.fabric.members.find? k =
      if k = scout ∨ k ∈ killed then none else members.find? k) ∧
    s'.matchedBy scout = killed.length := by
  obtain ⟨m, hm⟩ := hscout
  have hfind : s.fabric.members.find? scout = some m := by
    rw [h.member, if_neg hout, hm]
  have hmembers : ∀ k, (s.delete scout).1.fabric.members.find? k =
      if k = scout then none else s.fabric.members.find? k := by
    intro k
    simp only [Site.delete, Fabric.delete_of_find? h.accepts hfind]
    rw [fabric_note, Fabric.members_change, OrderedMap.find?_alter]
  have hlisteners : (s.delete scout).1.listeners = s.listeners := by
    simp only [Site.delete, Fabric.delete_of_find? h.accepts hfind]
    rfl
  have hgone : (s.delete scout).1.fabric.isEnabled scout = false := isEnabled_delete h.accepts scout
  have hquiet : (s.delete scout).1.QuietBut none := by
    refine h.quiet.transfer fun k _ hen => ?_
    have hk : k ≠ scout := by
      rintro rfl
      rw [hgone] at hen
      cases hen
    have hsame : (s.delete scout).1.fabric.members.find? k = s.fabric.members.find? k := by
      rw [hmembers, if_neg hk]
    exact ⟨fun heq => hk (Option.some.inj heq), (Fabric.isEnabled_congr hsame).symm.trans hen,
      by rw [hlisteners]⟩
  obtain ⟨hkept, hheard⟩ := hquiet.drains hdrains
  refine ⟨fun k => ?_, ?_⟩
  · rw [hkept, hmembers, h.member]
    by_cases hk : k = scout
    · rw [if_pos hk, if_pos (.inl hk)]
    · simp only [hk, false_or, if_false]
  · rw [matchedBy, hheard scout hgone, hlisteners, h.listener]

/-! ## The record -/

@[simp] theorem fabric_clearRecord (s : Site) (store : Store) (domain : UInt32) :
    (s.clearRecord store domain).fabric = s.fabric := by
  unfold clearRecord
  split <;> rfl

@[simp] theorem fabric_clearStaleRecord (s : Site) (store : Store) (domain : UInt32) :
    (s.clearStaleRecord store domain).fabric = s.fabric := by
  unfold clearStaleRecord
  split
  · split
    · rfl
    · exact fabric_clearRecord _ _ _
  · rfl

def settleRecord (s : Site) (store : Store) (domain : UInt32) (matched : Nat) : Site :=
  if 0 < matched then s.clearRecord store domain else s.clearStaleRecord store domain

section Stores

variable {store : Store} {good : Storage → Prop} {s : Site}

theorem load_clearRecord (hstore : store.Reliable good) (hgood : good s.storage)
    (domain domain' : UInt32) :
    store.load (s.clearRecord store domain).storage domain' =
      if domain' = domain then .ok none else store.load s.storage domain' := by
  obtain ⟨storage, hclear, _, hload⟩ := hstore.clear domain hgood
  simp only [clearRecord, hclear]
  exact hload domain'

/-- Whether the record of a domain is that of a process which is gone. -/
def HasStaleRecord (s : Site) (store : Store) (domain : UInt32) : Prop :=
  ∃ record, store.load s.storage domain = .ok (some record) ∧
    s.processes.isAlive record.pid = false

theorem settleRecord_of_clears {domain : UInt32} {matched : Nat}
    (h : 0 < matched ∨ s.HasStaleRecord store domain) :
    s.settleRecord store domain matched = s.clearRecord store domain := by
  unfold settleRecord
  split
  · rfl
  · rename_i hnone
    obtain ⟨record, hload, hdead⟩ := h.resolve_left hnone
    simp [clearStaleRecord, hload, hdead]

theorem settleRecord_of_keeps {domain : UInt32} {matched : Nat} (hmatched : ¬ 0 < matched)
    (h : ¬ s.HasStaleRecord store domain) : s.settleRecord store domain matched = s := by
  unfold settleRecord
  rw [if_neg hmatched, clearStaleRecord]
  split
  · rename_i record hload
    split
    · rfl
    · rename_i hdead
      exact absurd ⟨record, hload, by simpa using hdead⟩ h
  · rfl

theorem load_settleRecord_of_ne (hstore : store.Reliable good) (hgood : good s.storage)
    {domain domain' : UInt32} (hne : domain' ≠ domain) (matched : Nat) :
    store.load (s.settleRecord store domain matched).storage domain' =
      store.load s.storage domain' := by
  by_cases hclears : 0 < matched ∨ s.HasStaleRecord store domain
  · rw [settleRecord_of_clears hclears, load_clearRecord hstore hgood, if_neg hne]
  · obtain ⟨hmatched, hstale⟩ := not_or.1 hclears
    rw [settleRecord_of_keeps hmatched hstale]

/-- The record goes if something was matched or its process is gone; else it is as it was. -/
theorem load_settleRecord_eq_none_iff (hstore : store.Reliable good) (hgood : good s.storage)
    (domain : UInt32) (matched : Nat) :
    store.load (s.settleRecord store domain matched).storage domain = .ok none ↔
      0 < matched ∨ store.load s.storage domain = .ok none ∨ s.HasStaleRecord store domain := by
  by_cases hclears : 0 < matched ∨ s.HasStaleRecord store domain
  · rw [settleRecord_of_clears hclears, load_clearRecord hstore hgood, if_pos rfl]
    exact iff_of_true rfl (hclears.imp id .inr)
  · obtain ⟨hmatched, hstale⟩ := not_or.1 hclears
    rw [settleRecord_of_keeps hmatched hstale]
    simp only [hmatched, hstale, false_or, or_false]

theorem paces_settleRecord (s : Site) (store : Store) (domain : UInt32) (matched : Nat) :
    Paces s (s.settleRecord store domain matched) := by
  unfold settleRecord
  split
  · exact paces_clearRecord _ _ _
  · exact paces_clearStaleRecord _ _ _

theorem fabric_settleRecord (s : Site) (store : Store) (domain : UInt32) (matched : Nat) :
    (s.settleRecord store domain matched).fabric = s.fabric := by
  unfold settleRecord
  split
  · exact fabric_clearRecord _ _ _
  · exact fabric_clearStaleRecord _ _ _

end Stores

end Site

/-! ## The whole recovery -/

namespace Context

open Site

/-- The site of a recovery as its participant joins. -/
def seeking (c : Context) (s : Site) (domain : UInt32) : Site :=
  (s.create domain c.config.recoveryQos.profile (.recovery c.config.serverPrefix 0)).1

/-- The site of a recovery whose participant has waited. -/
def scouted (c : Context) (t : Timing) (s : Site) (domain : UInt32) : Site :=
  t.pause .waiting (c.seeking s domain)

/-- The site of a recovery whose participant has left, before the record is seen to. -/
def recovered (c : Context) (t : Timing) (s : Site) (domain : UInt32) : Site :=
  t.pause .deleted ((c.scouted t s domain).delete s.fabric.nextHandle).1

theorem recover_of_accepted {c : Context} {s : Site} (h : s.fabric.failNextCreate = false)
    (t : Timing) (domain : UInt32) :
    c.recover t s domain =
      ((c.recovered t s domain).settleRecord c.store domain
          ((c.recovered t s domain).matchedBy s.fabric.nextHandle),
        .ok (.recoveryAttempted ((c.recovered t s domain).matchedBy s.fabric.nextHandle))) := by
  simp only [recover, recovered, scouted, seeking, create_of_accepted h, settleRecord]

theorem sameRecords_recovered (c : Context) (t : Timing) (s : Site) (domain : UInt32) :
    s.SameRecords (c.recovered t s domain) := by
  have hcreate : Site.Step s (c.seeking s domain) := .create s domain _ (.recovery _)
  have hscouted := hcreate.sameRecords.trans (t.drains .waiting _).sameRecords
  exact (hscouted.trans (sameRecords_delete _ _)).trans (t.drains .deleted _).sameRecords

variable {c : Context} {t : Timing} {s : Site}

/-- A recovery whose participant waits until all is delivered leaves none of the carriers. -/
theorem recovered_spec (hs : s.Sound) (haccepts : s.fabric.refuseDeletes = false)
    (hcreate : s.fabric.failNextCreate = false) (hquiet : s.QuietBut none)
    (hwait : t.Settles .waiting) (domain : UInt32) :
    (∀ k, (c.recovered t s domain).fabric.members.find? k =
      if k ∈ s.fabric.carriers domain c.config.serverPrefix then none
      else s.fabric.members.find? k) ∧
    (c.recovered t s domain).matchedBy s.fabric.nextHandle =
      (s.fabric.carriers domain c.config.serverPrefix).length := by
  have hjoined := s.fabric.find?_join_nextHandle domain c.config.recoveryQos.profile true
  have hout := hs.fabric.nextHandle_not_mem_carriers domain c.config.serverPrefix
  have hthere : ∀ k ∈ s.fabric.carriers domain c.config.serverPrefix, ∃ m,
      (s.fabric.join domain c.config.recoveryQos.profile true).1.members.find? k = some m :=
    fun k hk => hs.fabric.find?_join_of_mem_carriers hk domain c.config.recoveryQos.profile
  have hdrained := (recovering_create hs haccepts hcreate hquiet domain
    c.config.recoveryQos.profile c.config.serverPrefix).drain ⟨_, hjoined, rfl⟩ hout
    (s.fabric.nodup_carriers domain c.config.serverPrefix) hthere
  rw [List.nil_append] at hdrained
  have hdeleted := t.drains .deleted ((c.scouted t s domain).delete s.fabric.nextHandle).1
  rw [scouted, hwait.pause_eq] at hdeleted
  obtain ⟨hmembers, hmatched⟩ := hdrained.delete hout ⟨_, hjoined⟩ hdeleted
  rw [recovered, scouted, hwait.pause_eq]
  refine ⟨fun k => ?_, hmatched⟩
  rw [hmembers]
  by_cases hk : k = s.fabric.nextHandle
  · rw [if_pos (.inl hk), if_neg (hk ▸ hout), hk, hs.fabric.find?_nextHandle]
  · rw [Fabric.members_join, OrderedMap.find?_insert, if_neg hk]
    simp only [hk, false_or]

end Context

/-- A context that is asked to stop a server it does not run deletes exactly the participants
of the domain that carry its server prefix, and reports how many they were, if its recovery
participant waits until all is delivered. Everybody else stays as they were. The record of
the domain goes if anybody was deleted or the process it names is gone, and the other records
stay. -/
theorem Deployment.Reachable.stop_recovers {d : Deployment} (hd : d.Reachable) {c : Context}
    (hc : d.Owns c) {domain : UInt32} (hnot : c.serverOn? domain = none)
    (haccepts : d.site.fabric.refuseDeletes = false)
    (hcreate : d.site.fabric.failNextCreate = false) (hquiet : d.site.QuietBut none)
    {good : Storage → Prop} (hstore : c.store.Reliable good) (hgood : good d.site.storage)
    {t : Timing} (hwait : t.Settles .waiting) :
    ∃ site, c.stop t d.site domain = (c, site, .ok (.recoveryAttempted
        (d.site.fabric.carriers domain c.config.serverPrefix).length)) ∧
      (∀ k, site.fabric.members.find? k =
        if k ∈ d.site.fabric.carriers domain c.config.serverPrefix then none
        else d.site.fabric.members.find? k) ∧
      (t.Settles .deleted → site.fabric.queue.toList = []) ∧
      (∀ running, c.server = some running → site.fabric.members.find? running.handle =
        d.site.fabric.members.find? running.handle) ∧
      (c.store.load site.storage domain = .ok none ↔
        0 < (d.site.fabric.carriers domain c.config.serverPrefix).length ∨
          c.store.load d.site.storage domain = .ok none ∨
          d.site.HasStaleRecord c.store domain) ∧
      ∀ domain', domain' ≠ domain →
        c.store.load site.storage domain' = c.store.load d.site.storage domain' := by
  obtain ⟨hmembers, hmatched⟩ :=
    Context.recovered_spec (c := c) hd.sound haccepts hcreate hquiet hwait domain
  obtain ⟨hstorage, hprocesses, _⟩ := c.sameRecords_recovered t d.site domain
  have hgood' : good (c.recovered t d.site domain).storage := hstorage.symm ▸ hgood
  have hrecover := Context.recover_of_accepted (c := c) hcreate t domain
  rw [hmatched] at hrecover
  have hstale : (c.recovered t d.site domain).HasStaleRecord c.store domain ↔
      d.site.HasStaleRecord c.store domain := by
    simp only [Site.HasStaleRecord, hstorage, hprocesses]
  have hstop : c.stop t d.site domain = (c, (c.recover t d.site domain).1,
      (c.recover t d.site domain).2) := by
    simp only [Context.stop, hnot]
  rw [hrecover] at hstop
  refine ⟨_, hstop, fun k => ?_, fun hsettles => ?_, fun running hr => ?_, ?_,
    fun domain' hne => ?_⟩
  · rw [Site.fabric_settleRecord, hmembers]
  · rw [Site.fabric_settleRecord]
    exact hsettles _
  · have hout : running.handle ∉ d.site.fabric.carriers domain c.config.serverPrefix := by
      intro hmem
      obtain ⟨m, hm, _, hdomain, _⟩ := Fabric.mem_carriers.1 hmem
      have hsame := ((hd.mirrored hc hr).member hm).1
      simp [Context.serverOn?, hr, ← hsame, hdomain] at hnot
    rw [Site.fabric_settleRecord, hmembers, if_neg hout]
  · rw [Site.load_settleRecord_eq_none_iff hstore hgood', hstorage, hstale]
  · rw [Site.load_settleRecord_of_ne hstore hgood' hne, hstorage]

/-- A context that runs a server on domain 1, where a peer is too, and another context. -/
def Deployment.withBystander : Deployment :=
  (new (Site.new .empty ⟨1, [], 0⟩) .memory).performAll
    [.newContext "A" (Config.default (.ofString "state")),
      .newContext "B" (Config.default (.ofString "state")), .start "A" 1 .empty,
      .command (.addPeer 1 ⟨Config.defaultRecoveryPrefix, none, []⟩)]

theorem Deployment.quiet_withBystander : withBystander.site.QuietBut none := by
  have hall : withBystander.site.listeners.entries.all (fun e => e.2.IsQuiet) = true := by cbv
  intro k l _ _ hl
  exact of_decide_eq_true (List.all_eq_true.1 hall _ (OrderedMap.find?_eq_some_iff.1 hl))

theorem Deployment.bystander_recovers : ∃ site,
    Context.stop ⟨Config.default (.ofString "state"), .memory, none⟩ .prompt
        withBystander.site 1 =
      (⟨Config.default (.ofString "state"), .memory, none⟩, site,
        .ok (.recoveryAttempted
          (withBystander.site.fabric.carriers 1 Config.defaultServerPrefix).length)) := by
  have hd : withBystander.Reachable := ⟨_, _, _, run_performAll _ _⟩
  have hc : withBystander.Owns ⟨Config.default (.ofString "state"), .memory, none⟩ :=
    .inl ⟨"B", by cbv⟩
  have haccepts : withBystander.site.fabric.refuseDeletes = false := by cbv
  have hcreate : withBystander.site.fabric.failNextCreate = false := by cbv
  obtain ⟨site, hstop, _⟩ := hd.stop_recovers hc rfl haccepts hcreate quiet_withBystander
    Store.reliable_memory trivial (Timing.settles_prompt _)
  exact ⟨site, hstop⟩

example : Deployment.withBystander.site.fabric.carriers 1 Config.defaultServerPrefix = [⟨1⟩] := by
  cbv

end Rendezvous
