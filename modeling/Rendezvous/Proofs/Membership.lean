import Rendezvous.Fabric

/-!
# What a fabric can do

Whatever happens to a fabric is one of five steps, and every step that concerns a member
is one change: the member becomes another one, or none, and if it took part in its domain
the others are told. From the steps follow the facts about members that hold along every
run: a handle is issued once, what a member announces of itself never changes, and a
member that was closed or deleted stays so.
-/

namespace Rendezvous

/-- What becomes of a member under a handle, and what the others are told of it. -/
inductive Member.Change (k : Handle) (m : Member) : Option Member → List Notification → Prop
  | announce (e : Entity) : Change k m (some (m.announce e)) [m.tell .discovered e]
  | withdraw {id : EntityId} {e : Entity} (h : m.entity? id = some e) :
      Change k m (some (m.withdraw id)) [m.tell .removed e]
  | changeQos : Change k m (some m) [m.tellOf k .changedQos]
  | close : Change k m (some { m with enabled := false }) (m.farewell k)
  | delete : Change k m none (m.farewell k)

namespace Fabric

/-- Let a member become another one, or none, and tell the others if it took part. -/
def change (f : Fabric) (k : Handle) (m : Member) (after : Option Member)
    (ns : List Notification) : Fabric :=
  let f := { f with members := f.members.alter k fun _ => after }
  if m.enabled then f.broadcast k (f.audience m.domain k) ns else f

inductive Step : Fabric → Fabric → Prop
  | stay (f : Fabric) : Step f f
  /-- The host asks for refusals, or a refusal is used up. -/
  | configure (f : Fabric) (failNextCreate refuseDeletes : Bool) :
      Step f { f with failNextCreate, refuseDeletes }
  | join (f : Fabric) (domain : UInt32) (profile : Profile) (listens : Bool) :
      Step f (f.join domain profile listens).1
  | change {f : Fabric} {k : Handle} {m : Member} {after : Option Member}
      {ns : List Notification} (hm : f.members.find? k = some m) (hc : m.Change k after ns) :
      Step f (f.change k m after ns)
  | take {f f' : Fabric} {d : Delivery} (h : f.next? = some (d, f')) : Step f f'

/-! ## Operations are steps -/

theorem addEntity_eq_ok {f f' : Fabric} {owner : Handle} {kind : EntityKind}
    {topicName typeName : String} {locators : RemoteLocators} {id : EntityId}
    (h : f.addEntity owner kind topicName typeName locators = .ok (f', id)) :
    ∃ m, f.members.find? owner = some m ∧
      f' = f.change owner m (some (m.announce ⟨id, kind, topicName, typeName, locators⟩))
        [m.tell .discovered ⟨id, kind, topicName, typeName, locators⟩] := by
  simp only [addEntity] at h
  split at h
  · simp at h
  · rename_i m hm
    refine ⟨m, hm, ?_⟩
    split at h <;> rename_i hen <;> simp only [Except.ok.injEq, Prod.mk.injEq] at h <;>
      obtain ⟨rfl, rfl⟩ := h <;> simp [change, hen, OrderedMap.insert]

theorem removeEntity_eq_ok {f f' : Fabric} {owner : Handle} {id : EntityId}
    (h : f.removeEntity owner id = .ok f') :
    ∃ m e, f.members.find? owner = some m ∧ m.entity? id = some e ∧
      f' = f.change owner m (some (m.withdraw id)) [m.tell .removed e] := by
  simp only [removeEntity] at h
  split at h
  · simp at h
  · rename_i m hm
    split at h
    · simp at h
    · rename_i e he
      refine ⟨m, e, hm, he, ?_⟩
      split at h <;> rename_i hen <;> simp only [Except.ok.injEq] at h <;>
        simp [change, hen, OrderedMap.insert, ← h]

theorem members_alter_self {f : Fabric} {k : Handle} {m : Member}
    (hm : f.members.find? k = some m) : (f.members.alter k fun _ => some m) = f.members :=
  OrderedMap.alter_of_eq hm.symm

theorem updateQos_eq_ok {f f' : Fabric} {k : Handle} (h : f.updateQos k = .ok f') :
    ∃ m, f.members.find? k = some m ∧
      f' = f.change k m (some m) [m.tellOf k .changedQos] := by
  simp only [updateQos] at h
  split at h
  · simp at h
  · rename_i m hm
    refine ⟨m, hm, ?_⟩
    split at h <;> rename_i hen <;> simp only [Except.ok.injEq] at h <;>
      simp [change, hen, members_alter_self hm, ← h]

theorem delete_eq_ok {f f' : Fabric} {k : Handle} (h : f.delete k = .ok f') :
    f.refuseDeletes = false ∧
      ∃ m, f.members.find? k = some m ∧ f' = f.change k m none (m.farewell k) := by
  simp only [delete] at h
  split at h
  · simp at h
  · rename_i href
    split at h
    · simp at h
    · rename_i m hm
      simp only [Except.ok.injEq] at h
      exact ⟨by simpa using href, m, hm, h.symm⟩

theorem delete_of_find? {f : Fabric} {k : Handle} {m : Member} (href : f.refuseDeletes = false)
    (hm : f.members.find? k = some m) :
    f.delete k = .ok (f.change k m none (m.farewell k)) := by
  simp only [delete, hm]
  rw [if_neg (by simp [href])]
  rfl

theorem isEnabled_iff {f : Fabric} {k : Handle} :
    f.isEnabled k = true ↔ ∃ m, f.members.find? k = some m ∧ m.enabled = true := by
  simp only [isEnabled, Option.any_eq_true]

theorem isEnabled_congr {f f' : Fabric} {k : Handle}
    (h : f'.members.find? k = f.members.find? k) : f'.isEnabled k = f.isEnabled k := by
  rw [isEnabled, h, isEnabled]

theorem close_of_enabled {f : Fabric} {k : Handle} {m : Member}
    (hm : f.members.find? k = some m) (hen : m.enabled = true) :
    f.close k = f.change k m (some { m with enabled := false }) (m.farewell k) := by
  simp [close, change, hm, hen, announceDeparture, OrderedMap.insert]

theorem next?_eq_some {f f' : Fabric} {d : Delivery} (h : f.next? = some (d, f')) :
    f.queue.toList = d :: f'.queue.toList ∧ f' = { f with queue := f'.queue } := by
  simp only [next?, Option.map_eq_some_iff] at h
  obtain ⟨⟨d', q⟩, hpop, heq⟩ := h
  simp only [Prod.mk.injEq] at heq
  obtain ⟨rfl, rfl⟩ := heq
  exact ⟨Queue.toList_of_pop?_eq_some hpop, rfl⟩

/-! ## What a step leaves behind -/

@[simp] theorem members_change (f : Fabric) (k : Handle) (m : Member) (after : Option Member)
    (ns : List Notification) :
    (f.change k m after ns).members = f.members.alter k fun _ => after := by
  simp only [change]
  split <;> rfl

@[simp] theorem nextHandle_change (f : Fabric) (k : Handle) (m : Member)
    (after : Option Member) (ns : List Notification) :
    (f.change k m after ns).nextHandle = f.nextHandle := by
  simp only [change]
  split <;> rfl

@[simp] theorem refuseDeletes_change (f : Fabric) (k : Handle) (m : Member)
    (after : Option Member) (ns : List Notification) :
    (f.change k m after ns).refuseDeletes = f.refuseDeletes := by
  simp only [change]
  split <;> rfl

/-- The others, after the change, are told each of the notifications in turn. -/
theorem queue_change (f : Fabric) (k : Handle) (m : Member) (after : Option Member)
    (ns : List Notification) :
    (f.change k m after ns).queue.toList = f.queue.toList ++
      if m.enabled then
        ((f.change k m after ns).audience m.domain k).flatMap fun target =>
          ns.map fun n => ⟨k, target, n⟩
      else [] := by
  simp only [change]
  split
  · simp only [broadcast, send, Queue.toList_pushAll, audience, present]
  · simp

theorem members_join (f : Fabric) (domain : UInt32) (profile : Profile) (listens : Bool) :
    (f.join domain profile listens).1.members =
      f.members.insert f.nextHandle (.new domain profile listens) := rfl

theorem find?_join_nextHandle (f : Fabric) (domain : UInt32) (profile : Profile)
    (listens : Bool) :
    (f.join domain profile listens).1.members.find? f.nextHandle =
      some (.new domain profile listens) := by
  rw [members_join, OrderedMap.find?_insert, if_pos rfl]

theorem queue_join (f : Fabric) (domain : UInt32) (profile : Profile) (listens : Bool) :
    (f.join domain profile listens).1.queue.toList = f.queue.toList ++
      (f.present domain).flatMap
        (exchange f.nextHandle (.new domain profile listens)) := by
  simp only [join, send, Queue.toList_pushAll]

theorem mem_present {f : Fabric} {domain : UInt32} {k : Handle} {m : Member} :
    (k, m) ∈ f.present domain ↔
      f.members.find? k = some m ∧ m.enabled = true ∧ m.domain = domain := by
  simp [present, OrderedMap.find?_eq_some_iff]

theorem mem_audience {f : Fabric} {domain : UInt32} {except k : Handle} :
    k ∈ f.audience domain except ↔ k ≠ except ∧ ∃ m, f.members.find? k = some m ∧
      m.enabled = true ∧ m.domain = domain ∧ m.listens = true := by
  simp only [audience, List.mem_map, List.mem_filter, Prod.exists, Bool.and_eq_true, bne_iff_ne]
  constructor
  · rintro ⟨k', m, ⟨hmem, hlistens, hne⟩, rfl⟩
    obtain ⟨hm, hen, hdomain⟩ := mem_present.1 hmem
    exact ⟨hne, m, hm, hen, hdomain, hlistens⟩
  · rintro ⟨hne, m, hm, hen, hdomain, hlistens⟩
    exact ⟨k, m, ⟨mem_present.2 ⟨hm, hen, hdomain⟩, hlistens, hne⟩, rfl⟩

theorem nodup_audience (f : Fabric) (domain : UInt32) (except : Handle) :
    (f.audience domain except).Nodup :=
  f.members.nodup_keys.sublist ((List.filter_sublist.trans List.filter_sublist).map _)

/-! ## Along every run -/

def Issued (f : Fabric) (k : Handle) : Prop := k.number < f.nextHandle.number

structure Sound (f : Fabric) : Prop where
  member : ∀ {k m}, f.members.find? k = some m → f.Issued k
  target : ∀ {d}, d ∈ f.queue.toList → f.Issued d.target

theorem not_issued_nextHandle (f : Fabric) : ¬ f.Issued f.nextHandle := Nat.lt_irrefl _

theorem Sound.find?_nextHandle {f : Fabric} (hf : f.Sound) :
    f.members.find? f.nextHandle = none := by
  cases hm : f.members.find? f.nextHandle with
  | none => rfl
  | some m => exact absurd (hf.member hm) f.not_issued_nextHandle

theorem sound_empty : empty.Sound where
  member h := by simp [empty] at h
  target h := absurd h List.not_mem_nil

end Fabric

structure Member.IsLater (after before : Member) : Prop where
  domain : after.domain = before.domain
  profile : after.profile = before.profile
  listens : after.listens = before.listens
  enabled : after.enabled = true → before.enabled = true

theorem Member.IsLater.refl (m : Member) : m.IsLater m := ⟨rfl, rfl, rfl, id⟩

theorem Member.IsLater.trans {a b c : Member} (h : a.IsLater b) (h' : b.IsLater c) :
    a.IsLater c :=
  ⟨h.domain.trans h'.domain, h.profile.trans h'.profile, h.listens.trans h'.listens,
    h'.enabled ∘ h.enabled⟩

theorem Member.Change.isLater {k : Handle} {m m' : Member} {ns : List Notification}
    (hc : m.Change k (some m') ns) : m'.IsLater m := by
  cases hc with
  | announce e => exact ⟨rfl, rfl, rfl, id⟩
  | withdraw h => exact ⟨rfl, rfl, rfl, id⟩
  | changeQos => exact .refl m
  | close => exact ⟨rfl, rfl, rfl, nofun⟩

namespace Fabric

/-- Handles stay given out, and a handle given out finds no member but the one that it had. -/
structure IsLater (after before : Fabric) : Prop where
  issued : ∀ {k}, before.Issued k → after.Issued k
  member : ∀ {k m'}, before.Issued k → after.members.find? k = some m' →
    ∃ m, before.members.find? k = some m ∧ m'.IsLater m

theorem IsLater.refl (f : Fabric) : f.IsLater f := ⟨id, fun _ hm => ⟨_, hm, .refl _⟩⟩

theorem IsLater.trans {a b c : Fabric} (h : a.IsLater b) (h' : b.IsLater c) : a.IsLater c where
  issued hk := h.issued (h'.issued hk)
  member hk hm := by
    obtain ⟨m₁, hm₁, hl₁⟩ := h.member (h'.issued hk) hm
    obtain ⟨m₂, hm₂, hl₂⟩ := h'.member hk hm₁
    exact ⟨m₂, hm₂, hl₁.trans hl₂⟩

/-- Whoever takes part in a domain has done so for as long as the handle is given out. -/
theorem IsLater.isEnabled_before {after before : Fabric} (h : after.IsLater before)
    {k : Handle} (hk : before.Issued k) (hen : after.isEnabled k = true) :
    before.isEnabled k = true := by
  obtain ⟨m', hm', hen'⟩ := isEnabled_iff.1 hen
  obtain ⟨m, hm, hlater⟩ := h.member hk hm'
  exact isEnabled_iff.2 ⟨m, hm, hlater.enabled hen'⟩

/-- A participant that does not take part in its domain never does so again. -/
theorem IsLater.isEnabled_eq_false {after before : Fabric} (h : after.IsLater before)
    {k : Handle} (hk : before.Issued k) (hen : before.isEnabled k = false) :
    after.isEnabled k = false := by
  rw [← Bool.not_eq_true] at hen ⊢
  exact fun hagain => hen (h.isEnabled_before hk hagain)

theorem Step.isLater {f f' : Fabric} (h : Step f f') : f'.IsLater f := by
  cases h with
  | stay => exact .refl f
  | configure => exact ⟨id, fun _ hm => ⟨_, hm, .refl _⟩⟩
  | join domain profile listens =>
      refine ⟨fun hk => Nat.lt_succ_of_lt hk, fun {k m'} hk hm => ?_⟩
      have hne : k ≠ f.nextHandle := fun heq => f.not_issued_nextHandle (heq ▸ hk)
      rw [members_join, OrderedMap.find?_insert, if_neg hne] at hm
      exact ⟨m', hm, .refl m'⟩
  | @change k m after ns hm hc =>
      refine ⟨fun hk => by simpa [Issued] using hk, fun {k' m'} _ hm' => ?_⟩
      rw [members_change, OrderedMap.find?_alter] at hm'
      split at hm'
      · rename_i heq
        subst heq hm'
        exact ⟨m, hm, hc.isLater⟩
      · exact ⟨m', hm', .refl m'⟩
  | take h =>
      obtain ⟨_, heq⟩ := next?_eq_some h
      rw [heq]
      exact ⟨id, fun _ hm => ⟨_, hm, .refl _⟩⟩

/-- Those to whom something is sent are members. -/
theorem issued_of_mem_audience {f : Fabric} (hf : ∀ {k m}, f.members.find? k = some m → f.Issued k)
    {domain : UInt32} {except k : Handle} (h : k ∈ f.audience domain except) : f.Issued k := by
  obtain ⟨_, m, hm, _⟩ := mem_audience.1 h
  exact hf hm

theorem Step.sound {f f' : Fabric} (h : Step f f') (hf : f.Sound) : f'.Sound := by
  have hlater := h.isLater
  cases h with
  | stay => exact hf
  | configure => exact ⟨hf.member, hf.target⟩
  | join domain profile listens =>
      refine ⟨fun {k m} hm => ?_, fun {d} hd => ?_⟩
      · rw [members_join, OrderedMap.find?_insert] at hm
        split at hm
        · rename_i heq
          subst heq
          exact Nat.lt_succ_self _
        · exact hlater.issued (hf.member hm)
      · rw [queue_join, List.mem_append] at hd
        rcases hd with hd | hd
        · exact hlater.issued (hf.target hd)
        · obtain ⟨⟨k, m⟩, hmem, hd⟩ := List.mem_flatMap.1 hd
          have hk := hlater.issued (hf.member (mem_present.1 hmem).1)
          rcases List.mem_append.1 hd with hd | hd
          · split at hd
            · obtain ⟨n, _, rfl⟩ := List.mem_map.1 hd
              exact Nat.lt_succ_self _
            · simp at hd
          · split at hd
            · simp only [List.mem_singleton] at hd
              subst hd
              exact hk
            · simp at hd
  | @change k m after ns hm hc =>
      have hmember : ∀ {k' m'}, (f.change k m after ns).members.find? k' = some m' →
          (f.change k m after ns).Issued k' := by
        intro k' m' hm'
        rw [members_change, OrderedMap.find?_alter] at hm'
        split at hm'
        · rename_i heq
          exact hlater.issued (heq ▸ hf.member hm)
        · exact hlater.issued (hf.member hm')
      refine ⟨hmember, fun {d} hd => ?_⟩
      rw [queue_change, List.mem_append] at hd
      rcases hd with hd | hd
      · exact hlater.issued (hf.target hd)
      · split at hd
        · obtain ⟨target, htarget, hd⟩ := List.mem_flatMap.1 hd
          obtain ⟨n, _, rfl⟩ := List.mem_map.1 hd
          exact issued_of_mem_audience hmember htarget
        · simp at hd
  | take h =>
      obtain ⟨hqueue, heq⟩ := next?_eq_some h
      refine ⟨fun {k m} hm => ?_, fun {d} hd => ?_⟩
      · rw [heq] at hm
        exact hlater.issued (hf.member hm)
      · exact hlater.issued (hf.target (hqueue ▸ List.mem_cons_of_mem _ hd))

end Fabric

end Rendezvous
