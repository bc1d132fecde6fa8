import Rendezvous.Proofs.Histories

/-!
# What entity ids identify

The readers and writers of a participant are numbered as they are announced, by a number of
two bytes, which starts anew after 65536 of them whether the ids are in use or not. Main
statement: the ids of those that are there are distinct exactly if no two of one kind have
numbers that differ by a multiple of 65536, and the id of one withdraws that one as long as no
earlier one has the same id.
-/

namespace Rendezvous

namespace EntityId

theorem kindByte_inj {kind kind' : EntityKind} : kindByte kind = kindByte kind' ↔ kind = kind' := by
  cases kind <;> cases kind' <;> decide

theorem bytes_inj {n n' : UInt16} (hhigh : (n >>> 8).toUInt8 = (n' >>> 8).toUInt8)
    (hlow : n.toUInt8 = n'.toUInt8) : n = n' := by
  have hhigh := congrArg UInt8.toNat hhigh
  have hlow := congrArg UInt8.toNat hlow
  have hn := n.toNat_lt
  have hn' := n'.toNat_lt
  have hshift : 2 ^ (8 % 2 ^ 16 % 16) = 256 := by decide
  simp only [UInt16.toNat_toUInt8, UInt16.toNat_shiftRight, UInt16.toNat_ofNat,
    Nat.shiftRight_eq_div_pow, hshift] at hhigh hlow
  apply UInt16.toNat_inj.1
  omega

theorem ofNumber_inj {kind kind' : EntityKind} {n n' : UInt16} :
    ofNumber kind n = ofNumber kind' n' ↔ kind = kind' ∧ n = n' := by
  constructor
  · intro h
    have hbytes := congrArg (fun id => id.bytes.toList) h
    simp only [ofNumber, Vector.toList_mk, List.cons.injEq, and_true, true_and] at hbytes
    exact ⟨kindByte_inj.1 hbytes.2.2, bytes_inj hbytes.1 hbytes.2.1⟩
  · rintro ⟨rfl, rfl⟩
    rfl

/-- Two numbers make one id if they differ by a multiple of 65536. -/
theorem ofNumber_ofNat_inj {kind kind' : EntityKind} {n n' : Nat} :
    ofNumber kind (UInt16.ofNat n) = ofNumber kind' (UInt16.ofNat n') ↔
      kind = kind' ∧ n % 65536 = n' % 65536 := by
  rw [ofNumber_inj, ← UInt16.toNat_inj, UInt16.toNat_ofNat', UInt16.toNat_ofNat']

end EntityId

/-! ## What was announced, by number -/

/-- How many readers and writers a participant has announced, and those that are there, each with
its number, the earliest in front. -/
structure Ledger where
  count : Nat
  live : List (Nat × Entity)

namespace Ledger

def after (l : Ledger) : Deed → Ledger
  | .announce e => ⟨l.count + 1, l.live ++ [(l.count + 1, e)]⟩
  | .withdraw e => { l with live := l.live.eraseP (·.2 == e) }
  | .changeQos => l
  | .close => l
  | .delete => l

def ofDeeds (deeds : List Deed) : Ledger := deeds.foldl after ⟨0, []⟩

theorem ofDeeds_concat (deeds : List Deed) (deed : Deed) :
    ofDeeds (deeds ++ [deed]) = (ofDeeds deeds).after deed := by
  rw [ofDeeds, List.foldl_append, ofDeeds]
  rfl

/-- Whether two of the readers and writers have one id. -/
def Clash (p q : Nat × Entity) : Prop := p.2.kind = q.2.kind ∧ p.1 % 65536 = q.1 % 65536

theorem Clash.symm {p q : Nat × Entity} (h : Clash p q) : Clash q p := ⟨h.1.symm, h.2.symm⟩

instance (p q : Nat × Entity) : Decidable (Clash p q) := inferInstanceAs (Decidable (_ ∧ _))

/-- Whether a member goes by a ledger: what is there is there with the id of its number, and the
next number is next. -/
structure Kept (l : Ledger) (m : Member) : Prop where
  entities : m.entities = l.live.map (·.2)
  next : m.nextEntity = UInt16.ofNat (l.count + 1)
  id : ∀ p ∈ l.live, p.2.id = .ofNumber p.2.kind (UInt16.ofNat p.1)
  ordered : l.live.Pairwise (·.1 < ·.1)
  counted : ∀ p ∈ l.live, p.1 ≤ l.count

section Kept

variable {l : Ledger} {m m' : Member}

theorem kept_new (domain : UInt32) (profile : Profile) (listens : Bool) :
    Kept ⟨0, []⟩ (.new domain profile listens) := ⟨rfl, rfl, nofun, .nil, nofun⟩

theorem Kept.announce (h : l.Kept m) {e : Entity} (hid : e.id = .ofNumber e.kind m.nextEntity) :
    (l.after (.announce e)).Kept (m.announce e) := by
  refine ⟨?_, ?_, fun p hp => ?_, ?_, fun p hp => ?_⟩
  · have hentities : (m.announce e).entities = m.entities ++ [e] := by
      simp [Member.announce, Member.entities]
    rw [hentities, h.entities, after, List.map_append]
    rfl
  · have hnext : (m.announce e).nextEntity = m.nextEntity + 1 := rfl
    rw [hnext, h.next, after, UInt16.ofNat_add (l.count + 1) 1]
    rfl
  · rcases List.mem_append.1 hp with hp | hp
    · exact h.id p hp
    · cases List.mem_singleton.1 hp
      rw [hid, h.next]
  · refine List.pairwise_append.2 ⟨h.ordered, List.pairwise_singleton _ _, fun p hp q hq => ?_⟩
    cases List.mem_singleton.1 hq
    exact Nat.lt_succ_of_le (h.counted p hp)
  · rcases List.mem_append.1 hp with hp | hp
    · exact Nat.le_succ_of_le (h.counted p hp)
    · cases List.mem_singleton.1 hp
      exact Nat.le_refl _

theorem Kept.withdraw (h : l.Kept m) {id : EntityId} {e : Entity} (he : m.entity? id = some e) :
    (l.after (.withdraw e)).Kept (m.withdraw id) := by
  have hsub : (l.live.eraseP (·.2 == e)).Sublist l.live := List.eraseP_sublist
  refine ⟨?_, h.next, fun p hp => h.id p (hsub.subset hp), h.ordered.sublist hsub,
    fun p hp => h.counted p (hsub.subset hp)⟩
  have hentities : (m.withdraw id).entities = m.entities.erase e := by
    rw [← Fabric.eraseP_eq_erase he, Member.entities, Member.withdraw, List.reverse_reverse]
  rw [hentities, h.entities, after, List.erase_eq_eraseP', List.eraseP_map]
  rfl

theorem Kept.of_same (h : l.Kept m) (hentities : m'.entities = m.entities)
    (hnext : m'.nextEntity = m.nextEntity) : l.Kept m' :=
  ⟨hentities.trans h.entities, hnext.trans h.next, h.id, h.ordered, h.counted⟩

end Kept

end Ledger

namespace Fabric

variable {f f' : Fabric} {k : Handle} {log entries : List Happening}

theorem addEntity_id {owner : Handle} {kind : EntityKind} {topicName typeName : String}
    {locators : RemoteLocators} {id : EntityId} {m : Member}
    (h : f.addEntity owner kind topicName typeName locators = .ok (f', id))
    (hm : f.members.find? owner = some m) : id = .ofNumber kind m.nextEntity := by
  simp only [addEntity, hm] at h
  split at h
  · cases h
    rfl
  · cases h
    rfl

structure Books (f : Fabric) (log : List Happening) : Prop where
  kept : ∀ {k m}, f.members.find? k = some m → (Ledger.ofDeeds (deeds k log)).Kept m
  blank : ∀ {k}, ¬ f.Issued k → deeds k log = []

theorem books_empty : empty.Books [] where
  kept h := by simp [empty] at h
  blank _ := rfl

theorem deeds_joined (k k' : Handle) (domain : UInt32) (profile : Profile) (listens : Bool) :
    deeds k (log ++ [.joined k' domain profile listens]) = deeds k log := by
  rw [deeds_append]
  exact List.append_nil _

theorem deeds_did (k : Handle) (deed : Deed) :
    deeds k (log ++ [.did k deed]) = deeds k log ++ [deed] := by
  have hone : deeds k [.did k deed] = [deed] := List.filterMap_cons_some (if_pos rfl)
  rw [deeds_append, hone]

theorem deeds_did_of_ne {k k' : Handle} (h : k' ≠ k) (deed : Deed) :
    deeds k (log ++ [.did k' deed]) = deeds k log := by
  have hnone : deeds k [.did k' deed] = [] := List.filterMap_cons_none (if_neg h)
  rw [deeds_append, hnone, List.append_nil]

theorem Books.join (h : f.Books log) (domain : UInt32) (profile : Profile) (listens : Bool) :
    (f.join domain profile listens).1.Books
      (log ++ [.joined f.nextHandle domain profile listens]) := by
  refine ⟨fun {k m} hm => ?_, fun {k} hk => ?_⟩
  · rw [deeds_joined]
    rw [members_join, OrderedMap.find?_insert] at hm
    split at hm
    · rename_i hnew
      cases hm
      rw [hnew, h.blank f.not_issued_nextHandle]
      exact Ledger.kept_new domain profile listens
    · exact h.kept hm
  · rw [issued_join, not_or] at hk
    rw [deeds_joined]
    exact h.blank hk.2

/-- What a deed makes of a member is what it makes of the ledger. -/
theorem Performs.kept {deed : Deed} (hp : f.Performs k deed f') {m m' : Member} {l : Ledger}
    (hm : f.members.find? k = some m) (hm' : f'.members.find? k = some m') (h : l.Kept m) :
    (l.after deed).Kept m' := by
  have hself : ∀ {m₀ : Member} {after : Option Member} {ns : List Notification},
      (f.change k m₀ after ns).members.find? k = some m' → after = some m' := by
    intro m₀ after ns hm'
    rwa [members_change, OrderedMap.find?_alter, if_pos rfl] at hm'
  cases hp with
  | announce hadd =>
      have hid := addEntity_id hadd hm
      obtain ⟨m₀, hm₀, rfl⟩ := addEntity_eq_ok hadd
      cases hm.symm.trans hm₀
      cases hself hm'
      exact h.announce hid
  | withdraw hm₁ he hremove =>
      obtain ⟨m₀, e₀, hm₀, he₀, rfl⟩ := removeEntity_eq_ok hremove
      cases hm.symm.trans hm₀
      cases hm.symm.trans hm₁
      cases he.symm.trans he₀
      cases hself hm'
      exact h.withdraw he
  | changeQos hupdate =>
      obtain ⟨m₀, hm₀, rfl⟩ := updateQos_eq_ok hupdate
      cases hm.symm.trans hm₀
      cases hself hm'
      exact h
  | close hen =>
      obtain ⟨m₀, hm₀, hmen⟩ := isEnabled_iff.1 hen
      cases hm.symm.trans hm₀
      rw [close_of_enabled hm hmen] at hm'
      cases hself hm'
      exact h.of_same rfl rfl
  | delete hdelete =>
      obtain ⟨_, m₀, hm₀, rfl⟩ := delete_eq_ok hdelete
      cases hself hm'

theorem Books.perform (h : f.Books log) (hf : f.Sound) {deed : Deed} (hp : f.Performs k deed f') :
    f'.Books (log ++ [.did k deed]) := by
  obtain ⟨m, after, ns, hm, _, hchange, _⟩ := hp.change
  refine ⟨fun {k' m'} hm' => ?_, fun {k'} hk' => ?_⟩
  · by_cases hk : k = k'
    · subst hk
      rw [deeds_did, Ledger.ofDeeds_concat]
      exact hp.kept hm hm' (h.kept hm)
    · rw [deeds_did_of_ne hk]
      rw [hchange, members_change, OrderedMap.find?_alter, if_neg (Ne.symm hk)] at hm'
      exact h.kept hm'
  · rw [hp.issued] at hk'
    have hk : k ≠ k' := fun heq => hk' (heq ▸ hf.member hm)
    rw [deeds_did_of_ne hk]
    exact h.blank hk'

theorem Does.books (hd : f.Does entries f') (hf : f.Sound) (h : f.Books log) :
    f'.Books (log ++ entries) := by
  cases hd with
  | nothing =>
      rw [List.append_nil]
      exact h
  | configure =>
      rw [List.append_nil]
      exact ⟨h.kept, h.blank⟩
  | take hn =>
      rw [List.append_nil, (next?_eq_some hn).2]
      exact ⟨h.kept, h.blank⟩
  | join domain profile listens => exact h.join domain profile listens
  | perform hp => exact h.perform hf hp

end Fabric

theorem Site.HasChronicle.books {s : Site} {log : List Happening} (h : s.HasChronicle log) :
    s.fabric.Books log := by
  induction h with
  | new storage processes => exact Fabric.books_empty
  | move hbefore _ hdoes ih => exact hdoes.books hbefore.chronicled.sound.fabric ih

/-! ## Ids that are in use -/

namespace Ledger

variable {l : Ledger} {m : Member} {p q : Nat × Entity}

theorem Kept.id_eq_iff (h : l.Kept m) (hp : p ∈ l.live) (hq : q ∈ l.live) :
    p.2.id = q.2.id ↔ Clash p q := by
  rw [h.id p hp, h.id q hq]
  exact EntityId.ofNumber_ofNat_inj

theorem Kept.nodup_iff (h : l.Kept m) :
    (m.entities.map (·.id)).Nodup ↔ l.live.Pairwise fun p q => ¬ Clash p q := by
  rw [h.entities, List.map_map, List.Nodup, List.pairwise_map]
  exact List.Pairwise.iff_of_mem fun hp hq => not_congr (h.id_eq_iff hp hq)

/-- No two clash as long as none is kept while 65536 more are announced. -/
theorem Kept.pairwise_of_recent (h : l.Kept m)
    (hrecent : ∀ p ∈ l.live, l.count < p.1 + 65536) :
    l.live.Pairwise fun p q => ¬ Clash p q := by
  refine h.ordered.imp_of_mem fun {p q} hp hq hless hclash => ?_
  have hwindow := hrecent p hp
  have hcount := h.counted q hq
  have hsame := hclash.2
  omega

/-- What stands in front of one of the readers and writers has smaller numbers, and what stands
behind it has greater ones. -/
theorem Kept.exists_split (h : l.Kept m) (hq : q ∈ l.live) :
    ∃ front back, l.live = front ++ q :: back ∧ (∀ r ∈ front, r.1 < q.1) ∧
      ∀ r ∈ back, q.1 < r.1 := by
  obtain ⟨front, back, hsplit⟩ := List.append_of_mem hq
  have hordered := h.ordered
  rw [hsplit, List.pairwise_append, List.pairwise_cons] at hordered
  exact ⟨front, back, hsplit, fun r hr => hordered.2.2 r hr q List.mem_cons_self,
    hordered.2.1.1⟩

theorem filter_ne_split {front back : List (Nat × Entity)} (hfront : ∀ r ∈ front, r.1 < q.1)
    (hback : ∀ r ∈ back, q.1 < r.1) :
    (front ++ q :: back).filter (·.1 != q.1) = front ++ back := by
  have hkeep : ∀ {rs : List (Nat × Entity)}, (∀ r ∈ rs, r.1 ≠ q.1) →
      rs.filter (·.1 != q.1) = rs := by
    intro rs hrs
    exact List.filter_eq_self.2 fun r hr => by simpa using hrs r hr
  rw [List.filter_append, List.filter_cons_of_neg (by simp),
    hkeep fun r hr => (hfront r hr).ne, hkeep fun r hr => (hback r hr).ne']

/-- An id finds, and takes away, the first of those that have it. -/
theorem Kept.first (h : l.Kept m) (hp : p ∈ l.live) (hq : q ∈ l.live) (hclash : Clash p q)
    (hfirst : ∀ r ∈ l.live, r.1 < q.1 → ¬ Clash p r) :
    m.entity? p.2.id = some q.2 ∧
      (m.withdraw p.2.id).entities = (l.live.filter (·.1 != q.1)).map (·.2) := by
  obtain ⟨front, back, hsplit, hfront, hback⟩ := h.exists_split hq
  have hid : q.2.id = p.2.id := ((h.id_eq_iff hp hq).2 hclash).symm
  have hnone : ∀ e ∈ front.map (·.2), ¬ (e.id == p.2.id) = true := by
    intro e he
    obtain ⟨r, hr, rfl⟩ := List.mem_map.1 he
    have hmem : r ∈ l.live := hsplit ▸ List.mem_append_left _ hr
    have hapart := hfirst r hmem (hfront r hr)
    rw [← h.id_eq_iff hp hmem] at hapart
    simpa using Ne.symm hapart
  have hentities : m.entities = front.map (·.2) ++ q.2 :: back.map (·.2) := by
    rw [h.entities, hsplit, List.map_append, List.map_cons]
  constructor
  · rw [Member.entity?, hentities, List.find?_append, List.find?_eq_none.2 hnone,
      List.find?_cons_of_pos (by simp [hid])]
    rfl
  · have hwithdraw : (m.withdraw p.2.id).entities = m.entities.eraseP (·.id == p.2.id) := by
      rw [Member.entities, Member.withdraw, List.reverse_reverse]
    rw [hwithdraw, hentities, List.eraseP_append_right _ hnone,
      List.eraseP_cons_of_pos (by simp [hid]), hsplit, filter_ne_split hfront hback,
      List.map_append]

end Ledger

/-- Whether an id withdraws one of the readers and writers that a participant has announced: all
others stay where they are, and whoever is to hear of it is told that this one was removed. -/
def Fabric.Withdraws (f : Fabric) (k : Handle) (m : Member) (l : Ledger) (id : EntityId)
    (p : Nat × Entity) : Prop :=
  ∃ f' m', f.removeEntity k id = .ok f' ∧ f'.members.find? k = some m' ∧
    m'.entities = (l.live.filter (·.1 != p.1)).map (·.2) ∧
    (∀ k', k' ≠ k → f'.members.find? k' = f.members.find? k') ∧
    f'.queue.toList = f.queue.toList ++
      if m.enabled then (f'.audience m.domain k).map fun target =>
        ⟨k, target, ⟨.removed, .entity m.profile.guidPrefix p.2⟩⟩
      else []

theorem Fabric.removeEntity_of_entity? {f : Fabric} {k : Handle} {m : Member} {id : EntityId}
    {e : Entity} (hm : f.members.find? k = some m) (he : m.entity? id = some e) :
    f.removeEntity k id = .ok (f.change k m (some (m.withdraw id)) [m.tell .removed e]) := by
  cases hen : m.enabled <;> simp [removeEntity, hm, he, change, hen, OrderedMap.insert]

theorem Ledger.Kept.withdraws {f : Fabric} {k : Handle} {m : Member} {l : Ledger}
    (h : l.Kept m) (hm : f.members.find? k = some m) {p q : Nat × Entity} (hp : p ∈ l.live)
    (hq : q ∈ l.live) (hclash : Ledger.Clash p q)
    (hfirst : ∀ r ∈ l.live, r.1 < q.1 → ¬ Ledger.Clash p r) :
    f.Withdraws k m l p.2.id q := by
  obtain ⟨hfound, hentities⟩ := h.first hp hq hclash hfirst
  refine ⟨_, m.withdraw p.2.id, Fabric.removeEntity_of_entity? hm hfound, ?_, hentities,
    fun k' hk => ?_, ?_⟩
  · rw [Fabric.members_change, OrderedMap.find?_alter, if_pos rfl]
  · rw [Fabric.members_change, OrderedMap.find?_alter, if_neg hk]
  · rw [Fabric.queue_change]
    simp only [List.map_cons, List.map_nil, ← List.map_eq_flatMap]
    rfl

namespace Deployment

/-- The readers and writers that are there are those of the ledger; their ids are distinct exactly
if none of them clash, which is so as long as none is kept while its participant announces 65536
more; and an id withdraws the first of those that have it, and nothing else. -/
theorem Reachable.ids_identify {d : Deployment} (hd : d.Reachable) :
    (∃ log, d.site.HasChronicle log) ∧
    ∀ log, d.site.HasChronicle log → ∀ k m, d.site.fabric.members.find? k = some m →
      m.entities = (Ledger.ofDeeds (deeds k log)).live.map (·.2) ∧
      ((m.entities.map (·.id)).Nodup ↔
        (Ledger.ofDeeds (deeds k log)).live.Pairwise fun p q => ¬ Ledger.Clash p q) ∧
      (∀ p ∈ (Ledger.ofDeeds (deeds k log)).live, ∀ q ∈ (Ledger.ofDeeds (deeds k log)).live,
        Ledger.Clash p q →
        (∀ r ∈ (Ledger.ofDeeds (deeds k log)).live, r.1 < q.1 → ¬ Ledger.Clash p r) →
          d.site.fabric.Withdraws k m (Ledger.ofDeeds (deeds k log)) p.2.id q) ∧
      ((∀ p ∈ (Ledger.ofDeeds (deeds k log)).live,
          (Ledger.ofDeeds (deeds k log)).count < p.1 + 65536) →
        (m.entities.map (·.id)).Nodup ∧ ∀ p ∈ (Ledger.ofDeeds (deeds k log)).live,
          d.site.fabric.Withdraws k m (Ledger.ofDeeds (deeds k log)) p.2.id p) := by
  refine ⟨hd.hasChronicle, fun log hlog k m hm => ?_⟩
  have hkept := hlog.books.kept hm
  refine ⟨hkept.entities, hkept.nodup_iff,
    fun p hp q hq hclash hfirst => hkept.withdraws hm hp hq hclash hfirst, fun hrecent => ?_⟩
  have hapart := hkept.pairwise_of_recent hrecent
  refine ⟨hkept.nodup_iff.2 hapart, fun p hp => hkept.withdraws hm hp hp ⟨rfl, rfl⟩ ?_⟩
  intro r hr hless hclash
  have hwindow := hrecent r hr
  have hcount := hkept.counted p hp
  have hsame := hclash.2
  omega

/-- A peer that has announced readers and writers and withdrawn some of them. -/
def withEntities : Deployment :=
  (new (Site.new .empty ⟨1, [], 0⟩) .memory).performAll
    [.command (.addPeer 1 ⟨Config.defaultRecoveryPrefix, none, []⟩),
      .command (.addEntity ⟨1⟩ .reader "rt/first" "String" ⟨[], []⟩ 1),
      .command (.addEntity ⟨1⟩ .writer "rt/first" "String" ⟨[], []⟩ 2),
      .command (.removeEntity ⟨1⟩ (.ofNumber .writer 2)),
      .command (.addEntity ⟨1⟩ .reader "rt/second" "String" ⟨[], []⟩ 1),
      .command (.removeEntity ⟨1⟩ (.ofNumber .reader 1)),
      .command (.addEntity ⟨1⟩ .writer "rt/second" "String" ⟨[], []⟩ 1)]

theorem find?_withEntities : withEntities.site.fabric.members.find? ⟨1⟩ =
    some ⟨1, ⟨Config.defaultRecoveryPrefix, none, []⟩, false, true,
      [⟨.ofNumber .writer 5, .writer, "rt/second", "String", ⟨[], []⟩⟩,
        ⟨.ofNumber .reader 4, .reader, "rt/second", "String", ⟨[], []⟩⟩,
        ⟨.ofNumber .writer 3, .writer, "rt/first", "String", ⟨[], []⟩⟩], 6⟩ := by cbv

/-- Of those that are left, the last writer is withdrawn by its id, though it shares its topic
with a reader and its kind with another writer. -/
theorem writer_withdrawn : ∃ log m p, withEntities.site.HasChronicle log ∧
    withEntities.site.fabric.members.find? ⟨1⟩ = some m ∧
    m.entities.map (·.id) = [.ofNumber .writer 3, .ofNumber .reader 4, .ofNumber .writer 5] ∧
    p ∈ (Ledger.ofDeeds (deeds ⟨1⟩ log)).live ∧ p.2.topicName = "rt/second" ∧
    (m.entities.map (·.id)).Nodup ∧ withEntities.site.fabric.Withdraws ⟨1⟩ m
      (Ledger.ofDeeds (deeds ⟨1⟩ log)) (.ofNumber .writer 5) p := by
  have hreachable : withEntities.Reachable := ⟨_, _, _, run_performAll _ _⟩
  obtain ⟨⟨log, hlog⟩, hall⟩ := hreachable.ids_identify
  obtain ⟨hentities, hnodup, hwithdraws, _⟩ := hall log hlog ⟨1⟩ _ find?_withEntities
  have hmem : (⟨.ofNumber .writer 5, .writer, "rt/second", "String", ⟨[], []⟩⟩ : Entity) ∈
      (Ledger.ofDeeds (deeds ⟨1⟩ log)).live.map (·.2) := by
    rw [← hentities]
    simp [Member.entities]
  obtain ⟨p, hp, hsame⟩ := List.mem_map.1 hmem
  have hid : p.2.id = .ofNumber .writer 5 := by rw [hsame]
  refine ⟨log, _, p, hlog, find?_withEntities, rfl, hp, by rw [hsame], by decide, ?_⟩
  rw [← hid]
  refine hwithdraws p hp p hp ⟨rfl, rfl⟩ fun r hr hless hclash => ?_
  -- Ids that are distinct leave nobody else who clashes with it.
  have hapart := hnodup.1 (by decide)
  have hsymm : Std.Symm fun p q => ¬ Ledger.Clash p q := ⟨fun _ _ h h' => h h'.symm⟩
  have hne : p ≠ r := by
    rintro rfl
    exact absurd hless (Nat.lt_irrefl _)
  exact hapart.forall hp hr hne hclash

end Deployment

/-! ## Ids that are used twice -/

theorem Fabric.addEntity_of_find? {f : Fabric} {owner : Handle} {m : Member}
    (hm : f.members.find? owner = some m) (kind : EntityKind) (topicName typeName : String)
    (locators : RemoteLocators) :
    ∃ f', f.addEntity owner kind topicName typeName locators =
        .ok (f', .ofNumber kind m.nextEntity) ∧
      f'.members.find? owner = some (m.announce
        ⟨.ofNumber kind m.nextEntity, kind, topicName, typeName, locators⟩) := by
  have hok : ∃ f', f.addEntity owner kind topicName typeName locators =
      .ok (f', .ofNumber kind m.nextEntity) := by
    simp only [addEntity, hm]
    split <;> exact ⟨_, rfl⟩
  obtain ⟨f', hadd⟩ := hok
  obtain ⟨m', hm', rfl⟩ := addEntity_eq_ok hadd
  cases hm.symm.trans hm'
  refine ⟨_, hadd, ?_⟩
  rw [members_change, OrderedMap.find?_alter, if_pos rfl]

namespace Site

variable {s : Site}

/-- What is announced a number of times over is there as often, numbered from the next number on. -/
theorem find?_addEntities {owner : Handle} {m : Member}
    (hm : s.fabric.members.find? owner = some m) (kind : EntityKind)
    (topicName typeName : String) (locators : RemoteLocators) (copies : Nat) (reply : Reply) :
    ∃ m', (s.addEntities owner kind topicName typeName locators copies reply).1.fabric.members.find?
        owner = some m' ∧ m'.nextEntity = m.nextEntity + UInt16.ofNat copies ∧
      m'.entities = m.entities ++ (List.range copies).map fun i =>
        ⟨.ofNumber kind (m.nextEntity + UInt16.ofNat i), kind, topicName, typeName, locators⟩ := by
  induction copies generalizing s m reply with
  | zero => exact ⟨m, hm, by simp, by simp⟩
  | succ copies ih =>
      obtain ⟨f', hadd, hfound⟩ := Fabric.addEntity_of_find? hm kind topicName typeName locators
      obtain ⟨m', hm', hnext, hentities⟩ := ih (s := { s with fabric := f' }) hfound
        (.entity (.ofNumber kind m.nextEntity))
      have hone : ∀ n, m.nextEntity + 1 + UInt16.ofNat n = m.nextEntity + UInt16.ofNat (n + 1) := by
        intro n
        rw [UInt16.ofNat_add, UInt16.add_assoc, UInt16.add_comm 1]
        rfl
      refine ⟨m', ?_, ?_, ?_⟩
      · simp only [addEntities, hadd]
        exact hm'
      · rw [hnext]
        exact hone copies
      · have hafter : ∀ e, (m.announce e).entities = m.entities ++ [e] := by
          intro e
          simp [Member.announce, Member.entities]
        have hnumber : ∀ e, (m.announce e).nextEntity = m.nextEntity + 1 := fun e => rfl
        rw [hentities, hafter, List.range_succ_eq_map, List.map_cons, List.map_map,
          List.append_assoc, List.singleton_append]
        have hzero : m.nextEntity + UInt16.ofNat 0 = m.nextEntity := UInt16.add_zero _
        simp only [Function.comp_def, hnumber, hone, Nat.succ_eq_add_one, hzero]

/-- Where nobody listens, draining only empties the queue. -/
theorem members_drain (h : ∀ k, s.listeners.find? k = none) :
    s.drain.fabric.members = s.fabric.members := by
  fun_induction drain s with
  | case1 s hs => rfl
  | case2 s s' hs ih =>
      obtain ⟨d, fabric, hn, rfl⟩ := exists_deliver_of_step? hs
      have hdeliver : ({ s with fabric } : Site).deliver d = { s with fabric } := by
        simp only [deliver, h]
        exact ite_self _
      simp only [hdeliver] at ih ⊢
      rw [ih h, Fabric.members_of_next? hn]

end Site

namespace Deployment

def withWriter : Deployment :=
  (new (Site.new .empty ⟨1, [], 0⟩) .memory).performAll
    [.command (.addPeer 1 ⟨Config.defaultRecoveryPrefix, none, []⟩),
      .command (.addEntity ⟨1⟩ .writer "rt/first" "String" ⟨[], []⟩ 1)]

theorem find?_withWriter : withWriter.site.fabric.members.find? ⟨1⟩ =
    some ⟨1, ⟨Config.defaultRecoveryPrefix, none, []⟩, false, true,
      [⟨.ofNumber .writer 1, .writer, "rt/first", "String", ⟨[], []⟩⟩], 2⟩ := by cbv

/-- The peer with 65536 more writers, of another topic. -/
def crowded : Deployment :=
  (withWriter.perform (.command (.addEntity ⟨1⟩ .writer "rt/last" "String" ⟨[], []⟩ 65536))).1

/-- The members after readers or writers were announced where nobody listens. -/
theorem members_perform_addEntity {d : Deployment} (h : ∀ k, d.site.listeners.find? k = none)
    (owner : Handle) (kind : EntityKind) (topicName typeName : String) (locators : RemoteLocators)
    (copies : Nat) :
    (d.perform (.command
        (.addEntity owner kind topicName typeName locators copies))).1.site.fabric.members =
      (d.site.addEntities owner kind topicName typeName locators copies
        .nothing).1.fabric.members := by
  refine Site.members_drain fun k => ?_
  exact (congrArg (·.find? k) (Site.listeners_addEntities _ _ _ _ _ _ _ _)).trans (h k)

/-- The last writer of the crowded peer has the id of the first one, and that id finds the first. -/
theorem not_ids_identify : crowded.Reachable ∧
    ∃ m, crowded.site.fabric.members.find? ⟨1⟩ = some m ∧ ¬ (m.entities.map (·.id)).Nodup ∧
      ∃ last first, m.entities.getLast? = some last ∧ m.entity? last.id = some first ∧
        last.topicName = "rt/last" ∧ first.topicName = "rt/first" := by
  have hquiet : ∀ k, withWriter.site.listeners.find? k = none := by
    have hnone : withWriter.site.listeners = .empty := by cbv
    intro k
    rw [hnone, OrderedMap.find?_empty]
  have hreachable : withWriter.Reachable := ⟨_, _, _, run_performAll _ _⟩
  obtain ⟨m, hm, _, hentities⟩ := Site.find?_addEntities find?_withWriter .writer "rt/last"
    "String" ⟨[], []⟩ 65536 .nothing
  rw [← members_perform_addEntity hquiet] at hm
  have hagain : (2 : UInt16) + UInt16.ofNat 65535 = 1 := by decide
  have hrange : List.range 65536 = List.range 65535 ++ [65535] := List.range_succ
  rw [hrange, List.map_append, List.map_singleton, hagain] at hentities
  generalize (List.range 65535).map _ = between at hentities
  refine ⟨hreachable.run (run_perform _ _), m, hm, ?_,
    ⟨.ofNumber .writer 1, .writer, "rt/last", "String", ⟨[], []⟩⟩,
    ⟨.ofNumber .writer 1, .writer, "rt/first", "String", ⟨[], []⟩⟩, ?_, ?_, rfl, rfl⟩
  · rw [hentities]
    simp [Member.entities]
  · rw [hentities, ← List.append_assoc, List.getLast?_concat]
  · rw [Member.entity?, hentities]
    rfl

end Deployment

end Rendezvous
