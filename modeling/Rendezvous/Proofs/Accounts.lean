import Mathlib.Data.List.Count
import Rendezvous.Fabric

/-!
# Accounts of what participants do

What others are told of a participant is an account of its deeds, from what it has in the
beginning up to its departure. Main statements: the account of deeds done one after the
other is made one after the other; nothing comes after the word of the departure; and
nothing is removed more often than it was there or was shown.
-/

namespace Rendezvous

/-- What a participant does after it has joined. -/
inductive Deed where
  | announce (e : Entity)
  | withdraw (e : Entity)
  | changeQos
  | close
  | delete
  deriving DecidableEq, Repr

structure Presence where
  domain : UInt32
  profile : Profile
  listens : Bool
  /-- The readers and writers not withdrawn, the earliest in front. -/
  entities : List Entity
  deriving DecidableEq, Repr

namespace Presence

def tell (x : Presence) (status : DiscoveryStatus) (e : Entity) : Notification :=
  ⟨status, .entity x.profile.guidPrefix e⟩

def tellOf (x : Presence) (h : Handle) (status : DiscoveryStatus) : Notification :=
  ⟨status, .participant h x.profile⟩

/-- Word of a participant and its readers and writers, to one that discovers it. -/
def introduction (x : Presence) (h : Handle) : List Notification :=
  x.tellOf h .discovered :: x.entities.map (x.tell .discovered)

/-- Word of a departure: one for each reader and writer left, then one for the participant. -/
def farewell (x : Presence) (h : Handle) : List Notification :=
  x.entities.map (x.tell .removed) ++ [x.tellOf h .removed]

/-- What is left of a presence after a deed; nothing is left after a departure. -/
def after? (x : Presence) : Deed → Option Presence
  | .announce e => some { x with entities := x.entities ++ [e] }
  | .withdraw e => some { x with entities := x.entities.erase e }
  | .changeQos => some x
  | .close => none
  | .delete => none

/-- The words in which others are told of a deed. -/
def words (x : Presence) (h : Handle) : Deed → List Notification
  | .announce e => [x.tell .discovered e]
  | .withdraw e => [x.tell .removed e]
  | .changeQos => [x.tellOf h .changedQos]
  | .close => x.farewell h
  | .delete => x.farewell h

/-- What is told of the deeds of a participant, in their order, up to its departure. -/
def account (h : Handle) (x : Presence) : List Deed → List Notification
  | [] => []
  | deed :: deeds =>
      x.words h deed ++
        match x.after? deed with
        | none => []
        | some x' => account h x' deeds

structure SameFace (x y : Presence) : Prop where
  domain : y.domain = x.domain
  profile : y.profile = x.profile
  listens : y.listens = x.listens

theorem sameFace_of_after? {x y : Presence} {deed : Deed} (h : x.after? deed = some y) :
    x.SameFace y := by
  cases deed <;> simp only [after?, Option.some.injEq, reduceCtorEq] at h <;> subst h <;>
    exact ⟨rfl, rfl, rfl⟩

theorem sameFace_of_foldlM {x y : Presence} {deeds : List Deed}
    (h : deeds.foldlM after? x = some y) : x.SameFace y := by
  induction deeds generalizing x with
  | nil =>
      cases h
      exact ⟨rfl, rfl, rfl⟩
  | cons deed deeds ih =>
      rw [List.foldlM_cons] at h
      obtain ⟨z, hz, hy⟩ := Option.bind_eq_some_iff.1 h
      have hfirst := sameFace_of_after? hz
      have hrest := ih hy
      exact ⟨hrest.domain.trans hfirst.domain, hrest.profile.trans hfirst.profile,
        hrest.listens.trans hfirst.listens⟩

theorem account_append (h : Handle) (x : Presence) (deeds more : List Deed) :
    account h x (deeds ++ more) = account h x deeds ++
      match deeds.foldlM after? x with
      | none => []
      | some x' => account h x' more := by
  induction deeds generalizing x with
  | nil => rfl
  | cons deed deeds ih =>
      rw [List.cons_append, account, account, List.foldlM_cons]
      cases hx : x.after? deed with
      | none => simp
      | some x' => simp [ih]

/-- An account that goes as far as the departure ends with word of it. -/
theorem tellOf_removed_mem_account {h : Handle} {x : Presence} {deeds : List Deed}
    (hgone : deeds.foldlM after? x = none) : x.tellOf h .removed ∈ account h x deeds := by
  induction deeds generalizing x with
  | nil => cases hgone
  | cons deed deeds ih =>
      rw [List.foldlM_cons] at hgone
      rw [account]
      cases hx : x.after? deed with
      | none =>
          cases deed with
          | close => simp [words, farewell]
          | delete => simp [words, farewell]
          | announce => simp [after?] at hx
          | withdraw => simp [after?] at hx
          | changeQos => simp [after?] at hx
      | some y =>
          rw [hx] at hgone
          have hmem := ih hgone
          rw [tellOf, (sameFace_of_after? hx).profile] at hmem
          exact List.mem_append_right _ hmem

/-! ## What an account removes -/

/-- Whether readers and writers are withdrawn only where they are there. -/
def Orderly (x : Presence) : List Deed → Prop
  | [] => True
  | deed :: deeds =>
      (∀ e, deed = .withdraw e → e ∈ x.entities) ∧ ∀ y, x.after? deed = some y → y.Orderly deeds

/-- All of which others know as long as a participant is present: itself, and what it has. -/
def subjects (x : Presence) (h : Handle) : List Subject :=
  .participant h x.profile :: x.entities.map (.entity x.profile.guidPrefix)

theorem count_discovered_introduction (x : Presence) (h : Handle) (subject : Subject) :
    (x.introduction h).count ⟨.discovered, subject⟩ = (x.subjects h).count subject := by
  have hmap : x.introduction h = (x.subjects h).map fun s => ⟨.discovered, s⟩ := by
    simp [introduction, subjects, tellOf, tell, Function.comp_def]
  rw [hmap]
  exact List.count_map_of_injective _ _ (fun _ _ heq => congrArg Notification.subject heq) subject

theorem count_removed_farewell (x : Presence) (h : Handle) (subject : Subject) :
    (x.farewell h).count ⟨.removed, subject⟩ = (x.subjects h).count subject := by
  have hperm : (x.farewell h).Perm ((x.subjects h).map fun s => ⟨.removed, s⟩) := by
    have hmap : (x.subjects h).map (fun s => (⟨.removed, s⟩ : Notification)) =
        [x.tellOf h .removed] ++ x.entities.map (x.tell .removed) := by
      simp [subjects, tellOf, tell, Function.comp_def]
    rw [hmap]
    exact List.perm_append_comm
  rw [hperm.count_eq]
  exact List.count_map_of_injective _ _ (fun _ _ heq => congrArg Notification.subject heq) subject

theorem count_removed_le_of_prefix_farewell {h : Handle} {x : Presence}
    {front : List Notification} (hfront : front <+: x.farewell h) (subject : Subject) :
    front.count ⟨.removed, subject⟩ ≤
      (x.subjects h).count subject + front.count ⟨.discovered, subject⟩ := by
  have hle := hfront.sublist.count_le ⟨.removed, subject⟩
  rw [count_removed_farewell] at hle
  omega

theorem count_cons_of_status (status : DiscoveryStatus) (s subject : Subject)
    (front : List Notification) : (⟨status, s⟩ :: front : List Notification).count
      ⟨status, subject⟩ = [s].count subject + front.count ⟨status, subject⟩ := by
  simp [List.count_cons, Nat.add_comm]

theorem count_cons_of_ne_status (status status' : DiscoveryStatus) (h : status ≠ status')
    (s subject : Subject) (front : List Notification) :
    (⟨status, s⟩ :: front : List Notification).count ⟨status', subject⟩ =
      front.count ⟨status', subject⟩ :=
  List.count_cons_of_ne fun heq => h (congrArg Notification.status heq)

theorem perm_subjects_withdraw {x : Presence} {e : Entity} (he : e ∈ x.entities) (h : Handle) :
    (x.subjects h).Perm (.entity x.profile.guidPrefix e ::
      ({ x with entities := x.entities.erase e } : Presence).subjects h) := by
  have hperm := (List.perm_cons_erase he).map (Subject.entity x.profile.guidPrefix)
  exact (hperm.cons _).trans (.swap _ _ _)

/-- No account removes anything that was not there or was shown before. -/
theorem count_removed_le_of_prefix_account {h : Handle} {x : Presence} {deeds : List Deed}
    (horderly : x.Orderly deeds) {front : List Notification} (hfront : front <+: account h x deeds)
    (subject : Subject) :
    front.count ⟨.removed, subject⟩ ≤
      (x.subjects h).count subject + front.count ⟨.discovered, subject⟩ := by
  induction deeds generalizing x front with
  | nil =>
      obtain rfl := List.prefix_nil.1 hfront
      simp
  | cons deed deeds ih =>
      obtain ⟨hthere, hrest⟩ := horderly
      -- A deed other than a departure is told in one word, and the rest of the front follows it.
      have hstep : ∀ {w : Notification} {y : Presence}, x.words h deed = [w] →
          x.after? deed = some y → front = [] ∨ ∃ front', front = w :: front' ∧
            front'.count ⟨.removed, subject⟩ ≤
              (y.subjects h).count subject + front'.count ⟨.discovered, subject⟩ := by
        intro w y hw hy
        simp only [account, hw, hy, List.cons_append, List.nil_append] at hfront
        rcases List.prefix_cons_iff.1 hfront with hnil | ⟨front', hcons, hfront'⟩
        · exact .inl hnil
        · exact .inr ⟨front', hcons, ih (hrest y hy) hfront'⟩
      cases deed with
      | announce e =>
          obtain rfl | ⟨front', rfl, hle⟩ := hstep rfl rfl
          · exact Nat.zero_le _
          · have hsubjects : ({ x with entities := x.entities ++ [e] } : Presence).subjects h =
                x.subjects h ++ [.entity x.profile.guidPrefix e] := by
              simp [subjects]
            rw [hsubjects, List.count_append] at hle
            rw [tell, count_cons_of_ne_status .discovered .removed nofun, count_cons_of_status]
            omega
      | withdraw e =>
          obtain rfl | ⟨front', rfl, hle⟩ := hstep rfl rfl
          · exact Nat.zero_le _
          · have hcount := (perm_subjects_withdraw (hthere e rfl) h).count_eq subject
            rw [← List.singleton_append, List.count_append] at hcount
            rw [tell, count_cons_of_status, count_cons_of_ne_status .removed .discovered nofun]
            omega
      | changeQos =>
          obtain rfl | ⟨front', rfl, hle⟩ := hstep rfl rfl
          · exact Nat.zero_le _
          · rw [tellOf, count_cons_of_ne_status .changedQos .removed nofun,
              count_cons_of_ne_status .changedQos .discovered nofun]
            exact hle
      | close =>
          simp only [account, words, after?, List.append_nil] at hfront
          exact count_removed_le_of_prefix_farewell hfront subject
      | delete =>
          simp only [account, words, after?, List.append_nil] at hfront
          exact count_removed_le_of_prefix_farewell hfront subject

/-! ## How an account ends -/

def IsFarewell (h : Handle) (n : Notification) : Prop :=
  n.status = .removed ∧ ∃ profile, n.subject = .participant h profile

theorem eq_of_prefix_farewell {h : Handle} {x : Presence} {front : List Notification}
    {last : Notification} (hlast : IsFarewell h last)
    (hfront : front ++ [last] <+: x.farewell h) : x.farewell h = front ++ [last] := by
  rcases List.prefix_concat_iff.1 hfront with heq | hentities
  · exact heq.symm
  · have hmem : last ∈ x.entities.map (x.tell .removed) :=
      hentities.subset (List.mem_append_right _ List.mem_cons_self)
    obtain ⟨e, _, rfl⟩ := List.mem_map.1 hmem
    obtain ⟨_, profile, hsubject⟩ := hlast
    cases hsubject

/-- Nothing comes after the word of a departure. -/
theorem account_eq_of_isFarewell {h : Handle} {x : Presence} {deeds : List Deed}
    {front : List Notification} {last : Notification} (hlast : IsFarewell h last)
    (hfront : front ++ [last] <+: account h x deeds) : account h x deeds = front ++ [last] := by
  induction deeds generalizing x front with
  | nil => exact absurd (List.prefix_nil.1 hfront) (by simp)
  | cons deed deeds ih =>
      have hstep : ∀ {w : Notification} {y : Presence}, x.words h deed = [w] →
          x.after? deed = some y → w ≠ last →
          account h x (deed :: deeds) = front ++ [last] := by
        intro w y hw hy hne
        simp only [account, hw, hy, List.cons_append, List.nil_append] at hfront ⊢
        cases front with
        | nil =>
            have hhead := (List.cons_prefix_cons.1 hfront).1
            exact absurd hhead.symm hne
        | cons n front =>
            obtain ⟨rfl, hrest⟩ := List.cons_prefix_cons.1 hfront
            rw [ih hrest]
            rfl
      obtain ⟨hstatus, profile, hsubject⟩ := hlast
      cases deed with
      | announce e =>
          apply hstep rfl rfl
          rintro rfl
          cases hsubject
      | withdraw e =>
          apply hstep rfl rfl
          rintro rfl
          cases hsubject
      | changeQos =>
          apply hstep rfl rfl
          rintro rfl
          cases hstatus
      | close =>
          simp only [account, words, after?, List.append_nil] at hfront ⊢
          exact eq_of_prefix_farewell ⟨hstatus, profile, hsubject⟩ hfront
      | delete =>
          simp only [account, words, after?, List.append_nil] at hfront ⊢
          exact eq_of_prefix_farewell ⟨hstatus, profile, hsubject⟩ hfront

end Presence

end Rendezvous
