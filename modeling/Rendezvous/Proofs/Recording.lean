import Rendezvous.Proofs.Chronicle
import Rendezvous.Proofs.Membership

/-!
# Keeping a chronicle

Every operation on a fabric that changes anything is one entry of a chronicle, and what
becomes of the member is what becomes of its presence. Main statement: a chronicle that is
kept so tells of every participant where it stands.
-/

namespace Rendezvous

def Member.presence (m : Member) : Presence := ⟨m.domain, m.profile, m.listens, m.entities⟩

/-- A member that takes no part does not come back. -/
theorem Member.Change.filter_enabled {m : Member} {k : Handle} {after : Option Member}
    {ns : List Notification} (hc : m.Change k after ns) (hen : m.enabled = false) :
    after.filter (·.enabled) = none := by
  cases after with
  | none => rfl
  | some m' =>
      have hen' : m'.enabled = false := by
        rw [← Bool.not_eq_true]
        intro hen'
        have hwas := hc.isLater.enabled hen'
        rw [hen] at hwas
        cases hwas
      simp [hen']

namespace Fabric

def presence? (f : Fabric) (k : Handle) : Option Presence :=
  ((f.members.find? k).filter (·.enabled)).map Member.presence

theorem presence?_eq_some_iff {f : Fabric} {k : Handle} {x : Presence} :
    f.presence? k = some x ↔
      ∃ m, f.members.find? k = some m ∧ m.enabled = true ∧ m.presence = x := by
  simp only [presence?, Option.map_eq_some_iff, Option.filter_eq_some_iff, and_assoc]

theorem presence?_eq_none_iff {f : Fabric} {k : Handle} :
    f.presence? k = none ↔ f.isEnabled k = false := by
  rw [presence?, Option.map_eq_none_iff, isEnabled]
  cases f.members.find? k <;> simp

/-- A deed of a participant as the fabric is asked for it. -/
inductive Performs (f : Fabric) (k : Handle) : Deed → Fabric → Prop
  | announce {kind : EntityKind} {topicName typeName : String} {locators : RemoteLocators}
      {id : EntityId} {f' : Fabric}
      (h : f.addEntity k kind topicName typeName locators = .ok (f', id)) :
      Performs f k (.announce ⟨id, kind, topicName, typeName, locators⟩) f'
  | withdraw {id : EntityId} {m : Member} {e : Entity} {f' : Fabric}
      (hm : f.members.find? k = some m) (he : m.entity? id = some e)
      (h : f.removeEntity k id = .ok f') : Performs f k (.withdraw e) f'
  | changeQos {f' : Fabric} (h : f.updateQos k = .ok f') : Performs f k .changeQos f'
  | close (h : f.isEnabled k = true) : Performs f k .close (f.close k)
  | delete {f' : Fabric} (h : f.delete k = .ok f') : Performs f k .delete f'

/-- What a fabric does at once, with what is to be entered into a chronicle. -/
inductive Does : Fabric → List Happening → Fabric → Prop
  | nothing (f : Fabric) : Does f [] f
  | configure (f : Fabric) (failNextCreate refuseDeletes : Bool) :
      Does f [] { f with failNextCreate, refuseDeletes }
  | take {f f' : Fabric} {d : Delivery} (h : f.next? = some (d, f')) : Does f [] f'
  | join (f : Fabric) (domain : UInt32) (profile : Profile) (listens : Bool) :
      Does f [.joined f.nextHandle domain profile listens] (f.join domain profile listens).1
  | perform {f f' : Fabric} {k : Handle} {deed : Deed} (h : f.Performs k deed f') :
      Does f [.did k deed] f'

/-- What is found first is what goes. -/
theorem eraseP_eq_erase {p : Entity → Bool} {entities : List Entity} {e : Entity}
    (h : entities.find? p = some e) : entities.eraseP p = entities.erase e := by
  induction entities with
  | nil => rfl
  | cons first entities ih =>
      by_cases hp : p first
      · rw [List.find?_cons_of_pos hp] at h
        cases h
        rw [List.eraseP_cons_of_pos hp, List.erase_cons_head]
      · rw [List.find?_cons_of_neg hp] at h
        have hne : first ≠ e := by
          rintro rfl
          exact hp (List.find?_some h)
        rw [List.eraseP_cons_of_neg hp, List.erase_cons_tail (by simpa using hne), ih h]

/-- A deed makes of a member what it makes of its presence, and is told in the same words. -/
theorem Performs.change {f f' : Fabric} {k : Handle} {deed : Deed} (h : f.Performs k deed f') :
    ∃ m after ns, f.members.find? k = some m ∧ m.Change k after ns ∧
      f' = f.change k m after ns ∧
      (m.enabled = true → ns = m.presence.words k deed ∧
        (after.filter (·.enabled)).map Member.presence = m.presence.after? deed) := by
  cases h with
  | announce h =>
      obtain ⟨m, hm, rfl⟩ := addEntity_eq_ok h
      refine ⟨m, _, _, hm, .announce _, rfl, fun hen => ⟨rfl, ?_⟩⟩
      simp [Member.announce, hen, Member.presence, Presence.after?, Member.entities]
  | @withdraw id m e _ hm he h =>
      obtain ⟨m', e', hm', he', rfl⟩ := removeEntity_eq_ok h
      rw [hm] at hm'
      cases hm'
      rw [he] at he'
      cases he'
      refine ⟨m, _, _, hm, .withdraw he, rfl, fun hen => ⟨rfl, ?_⟩⟩
      have hentities : (m.withdraw id).entities = m.entities.erase e := by
        rw [← eraseP_eq_erase he, Member.entities, Member.withdraw, List.reverse_reverse]
      simp [Member.withdraw, hen, Member.presence, Presence.after?] at hentities ⊢
      exact hentities
  | changeQos h =>
      obtain ⟨m, hm, rfl⟩ := updateQos_eq_ok h
      refine ⟨m, _, _, hm, .changeQos, rfl, fun hen => ⟨rfl, ?_⟩⟩
      simp [hen, Presence.after?]
  | close h =>
      obtain ⟨m, hm, hen⟩ := isEnabled_iff.1 h
      refine ⟨m, _, _, hm, .close, close_of_enabled hm hen, fun _ => ⟨rfl, ?_⟩⟩
      simp [Presence.after?]
  | delete h =>
      obtain ⟨_, m, hm, rfl⟩ := delete_eq_ok h
      exact ⟨m, _, _, hm, .delete, rfl, fun _ => ⟨rfl, rfl⟩⟩

theorem Does.step {f f' : Fabric} {entries : List Happening} (h : f.Does entries f') :
    Step f f' := by
  cases h with
  | nothing => exact .stay f
  | configure a b => exact .configure f a b
  | take h => exact .take h
  | join domain profile listens => exact .join f domain profile listens
  | perform h =>
      obtain ⟨m, after, ns, hm, hc, rfl, _⟩ := h.change
      exact .change hm hc

/-! ## Where participants stand in a fabric -/

/-- Whether a chronicle tells who takes part in a fabric, and nothing of those still to come. -/
structure Follows (f : Fabric) (log : List Happening) : Prop where
  present_iff : ∀ {k x}, standing k log = .present x ↔ f.presence? k = some x
  unknown : ∀ {k}, ¬ f.Issued k → standing k log = .unknown

theorem follows_empty : empty.Follows [] where
  present_iff {k x} := by
    simp [standing, presence?, empty]
  unknown _ := rfl

section Follows

variable {f f' : Fabric} {log : List Happening} {k : Handle}

theorem Follows.of_same (h : f.Follows log) (hmembers : f'.members = f.members)
    (hnext : f'.nextHandle = f.nextHandle) : f'.Follows log := by
  constructor
  · intro k x
    rw [presence?, hmembers]
    exact h.present_iff
  · intro k hk
    apply h.unknown
    rwa [Issued, ← hnext]

theorem issued_join (domain : UInt32) (profile : Profile) (listens : Bool) :
    (f.join domain profile listens).1.Issued k ↔ k = f.nextHandle ∨ f.Issued k := by
  have hnext : (f.join domain profile listens).1.nextHandle = f.nextHandle.next := rfl
  have hext : k = f.nextHandle ↔ k.number = f.nextHandle.number := by
    constructor
    · rintro rfl
      rfl
    · intro h
      exact congrArg Handle.mk h
  rw [Issued, hnext, hext]
  show k.number < f.nextHandle.number + 1 ↔ _ ∨ k.number < f.nextHandle.number
  omega

theorem presence?_join (domain : UInt32) (profile : Profile) (listens : Bool) :
    (f.join domain profile listens).1.presence? k =
      if k = f.nextHandle then some ⟨domain, profile, listens, []⟩ else f.presence? k := by
  rw [presence?, members_join, OrderedMap.find?_insert]
  split <;> rfl

theorem presence?_change (k' : Handle) (m : Member) (after : Option Member)
    (ns : List Notification) :
    (f.change k' m after ns).presence? k =
      if k = k' then (after.filter (·.enabled)).map Member.presence else f.presence? k := by
  rw [presence?, members_change, OrderedMap.find?_alter]
  split <;> rfl

theorem issued_change (k' : Handle) (m : Member) (after : Option Member)
    (ns : List Notification) : (f.change k' m after ns).Issued k ↔ f.Issued k := by
  rw [Issued, nextHandle_change, Issued]

theorem Performs.issued {k' : Handle} {deed : Deed} (h : f.Performs k' deed f') :
    f'.Issued k ↔ f.Issued k := by
  obtain ⟨m, after, ns, _, _, rfl, _⟩ := h.change
  exact issued_change _ _ _ _

theorem Follows.join (h : f.Follows log) (domain : UInt32) (profile : Profile)
    (listens : Bool) : (f.join domain profile listens).1.Follows
      (log ++ [.joined f.nextHandle domain profile listens]) := by
  constructor
  · intro k x
    rw [presence?_join]
    by_cases heq : f.nextHandle = k
    · subst heq
      have hbefore := h.unknown f.not_issued_nextHandle
      have hafter : standing f.nextHandle (log ++ [.joined f.nextHandle domain profile listens]) =
          (standing f.nextHandle log).next (.joined f.nextHandle domain profile listens) :=
        standing_concat log _ rfl
      rw [if_pos rfl, hafter, hbefore]
      simp [Standing.next]
    · have hsame : standing k (log ++ [.joined f.nextHandle domain profile listens]) =
          standing k log := standing_concat_of_ne log _ heq
      rw [if_neg (Ne.symm heq), hsame]
      exact h.present_iff
  · intro k hk
    rw [issued_join, not_or] at hk
    have hsame : standing k (log ++ [.joined f.nextHandle domain profile listens]) =
        standing k log := standing_concat_of_ne log _ (Ne.symm hk.1)
    rw [hsame]
    exact h.unknown hk.2

theorem Follows.absent (h : f.Follows log) (hgone : f.isEnabled k = false) (x : Presence) :
    standing k log ≠ .present x := by
  intro hx
  have hpresent := h.present_iff.1 hx
  rw [presence?_eq_none_iff.2 hgone] at hpresent
  cases hpresent

theorem Follows.perform (h : f.Follows log) (hf : f.Sound) {deed : Deed}
    (hp : f.Performs k deed f') : f'.Follows (log ++ [.did k deed]) := by
  obtain ⟨m, after, ns, hm, hc, rfl, hpresence⟩ := hp.change
  constructor
  · intro k' x
    rw [presence?_change]
    by_cases heq : k = k'
    · subst heq
      have hafter : standing k (log ++ [.did k deed]) = (standing k log).next (.did k deed) :=
        standing_concat log _ rfl
      rw [if_pos rfl, hafter]
      cases hen : m.enabled with
      | true =>
          have hbefore := h.present_iff.2 (presence?_eq_some_iff.2 ⟨m, hm, hen, rfl⟩)
          rw [hbefore, (hpresence hen).2, Standing.next]
          cases m.presence.after? deed <;> simp [Standing.ofOption]
      | false =>
          -- Who takes part no more does not come back, whatever it is asked for.
          have hgone : f.isEnabled k = false := by simp [isEnabled, hm, hen]
          rw [hc.filter_enabled hen, Option.map_none]
          cases hst : standing k log with
          | unknown => simp [Standing.next]
          | present y => exact absurd hst (h.absent hgone y)
          | departed => simp [Standing.next]
    · have hsame : standing k' (log ++ [.did k deed]) = standing k' log :=
        standing_concat_of_ne log _ heq
      rw [if_neg (Ne.symm heq), hsame]
      exact h.present_iff
  · intro k' hk'
    rw [issued_change] at hk'
    have heq : k ≠ k' := by
      rintro rfl
      exact hk' (hf.member hm)
    have hsame : standing k' (log ++ [.did k deed]) = standing k' log :=
      standing_concat_of_ne log _ heq
    rw [hsame]
    exact h.unknown hk'

theorem Does.follows {entries : List Happening} (hd : f.Does entries f') (hf : f.Sound)
    (h : f.Follows log) : f'.Follows (log ++ entries) := by
  cases hd with
  | nothing =>
      rw [List.append_nil]
      exact h
  | configure =>
      rw [List.append_nil]
      exact h.of_same rfl rfl
  | take hn =>
      rw [List.append_nil, (next?_eq_some hn).2]
      exact h.of_same rfl rfl
  | join domain profile listens => exact h.join domain profile listens
  | perform hp => exact h.perform hf hp

/-- A reader or writer is withdrawn only where it is there. -/
theorem Does.orderly {entries : List Happening} (hd : f.Does entries f') (h : f.Follows log)
    (horderly : Orderly log) : Orderly (log ++ entries) := by
  have hnew : ∀ {e : Happening}, entries = [e] → (∀ k x y, e = .did k (.withdraw x) →
      standing k log = .present y → x ∈ y.entities) → Orderly (log ++ entries) := by
    intro e he hlast past k x y hpast hy
    rw [he] at hpast
    rcases List.prefix_concat_iff.1 hpast with heq | hpast
    · obtain ⟨rfl, hentry⟩ := List.append_inj' heq rfl
      cases hentry
      exact hlast k x y rfl hy
    · exact horderly past k x y hpast hy
  cases hd with
  | nothing =>
      rw [List.append_nil]
      exact horderly
  | configure =>
      rw [List.append_nil]
      exact horderly
  | take =>
      rw [List.append_nil]
      exact horderly
  | join => exact hnew rfl fun k x y heq _ => nomatch heq
  | perform hp =>
      refine hnew rfl fun k x y heq hy => ?_
      cases heq
      cases hp with
      | withdraw hm he _ =>
          rw [h.present_iff] at hy
          obtain ⟨m', hm', _, rfl⟩ := presence?_eq_some_iff.1 hy
          rw [hm] at hm'
          cases hm'
          exact List.mem_of_find?_eq_some he

end Follows

end Fabric

end Rendezvous
