import Rendezvous.Proofs.Recording
import Rendezvous.Proofs.SiteSteps

/-!
# Who attends, according to the journal

The journal of a site tells of every participant that joins, is closed or is deleted, so
that who takes part in which domain can be read off at each moment of the past. Main
statement: at the end of a journal this is what the fabric says.
-/

namespace Rendezvous

structure Attendee where
  handle : Handle
  guidPrefix : GuidPrefix
  domain : UInt32
  deriving DecidableEq, Repr

def Sighting.attend (roll : List Attendee) : Sighting → List Attendee
  | .noticed (.participantJoined handle guidPrefix domain) =>
      roll ++ [⟨handle, guidPrefix, domain⟩]
  | .noticed (.participantClosed handle) => roll.filter (·.handle != handle)
  | .noticed (.participantDeleted handle) => roll.filter (·.handle != handle)
  | _ => roll

/-- Who attends at the end of a journal. -/
def attendance (journal : List Sighting) : List Attendee := journal.foldl Sighting.attend []

namespace Fabric

def part? (f : Fabric) (k : Handle) : Option (GuidPrefix × UInt32) :=
  (f.members.find? k).bind fun m =>
    if m.enabled then some (m.profile.guidPrefix, m.domain) else none

theorem part?_eq_some_iff {f : Fabric} {k : Handle} {p : GuidPrefix} {domain : UInt32} :
    f.part? k = some (p, domain) ↔ ∃ m, f.members.find? k = some m ∧ m.enabled = true ∧
      m.profile.guidPrefix = p ∧ m.domain = domain := by
  simp only [part?, Option.bind_eq_some_iff]
  refine exists_congr fun m => and_congr_right fun _ => ?_
  split <;> simp_all

theorem isEnabled_of_part? {f : Fabric} {k : Handle} {p : GuidPrefix} {domain : UInt32}
    (h : f.part? k = some (p, domain)) : f.isEnabled k = true := by
  obtain ⟨m, hm, hen, _⟩ := part?_eq_some_iff.1 h
  exact isEnabled_iff.2 ⟨m, hm, hen⟩

theorem part?_join (f : Fabric) (domain : UInt32) (profile : Profile) (listens : Bool)
    (k : Handle) :
    (f.join domain profile listens).1.part? k =
      if k = f.nextHandle then some (profile.guidPrefix, domain) else f.part? k := by
  simp only [part?, members_join, OrderedMap.find?_insert]
  split <;> rfl

theorem part?_change (f : Fabric) (k k' : Handle) (m : Member) (after : Option Member)
    (ns : List Notification) :
    (f.change k m after ns).part? k' =
      if k' = k then
        after.bind fun m => if m.enabled then some (m.profile.guidPrefix, m.domain) else none
      else f.part? k' := by
  simp only [part?, members_change, OrderedMap.find?_alter]
  split <;> rfl

theorem part?_change_of_isLater {f : Fabric} {k : Handle} {m m' : Member}
    {ns : List Notification} (hm : f.members.find? k = some m) (hl : m'.IsLater m)
    (hen : m'.enabled = m.enabled) (k' : Handle) :
    (f.change k m (some m') ns).part? k' = f.part? k' := by
  rw [part?_change]
  split
  · rename_i heq
    simp [part?, heq, hm, hen, hl.profile, hl.domain]
  · rfl

end Fabric

namespace Site

def roll (s : Site) : List Attendee := attendance s.journal

@[simp] theorem roll_note (s : Site) (sighting : Sighting) :
    (s.note sighting).roll = sighting.attend s.roll := by
  simp [roll, attendance, List.foldl_append]

theorem roll_notePublished (s : Site) (before after : DiscoveryListener) :
    (s.notePublished before after).roll = s.roll := by
  simp only [notePublished]
  split
  · split
    · rfl
    · exact roll_note _ _
  · rfl

theorem attend_sighting (roll : List Attendee) (h : Handle) (call : Call) :
    (sighting h call).attend roll = roll := by
  simp only [sighting]
  split <;> rfl

theorem attend_isRemark {x : Sighting} (hx : x.IsRemark) (roll : List Attendee) :
    x.attend roll = roll := by
  cases hx <;> rfl

theorem roll_takeIn (s : Site) (h : Handle) (l : Listener) (n : Notification) :
    (s.takeIn h l n).roll = s.roll := by
  cases l with
  | discovery l =>
      rcases hr : l.receive n with ⟨l', call⟩
      simp only [takeIn, hr]
      cases call with
      | none => exact roll_notePublished _ _ _
      | some call =>
          rw [roll_note, attend_sighting]
          exact roll_notePublished _ _ _
  | recovery target matched =>
      simp only [takeIn]
      split <;> rfl
  | scripted label script => rfl

theorem fabric_takeIn (s : Site) (h : Handle) (l : Listener) (n : Notification) :
    (s.takeIn h l n).fabric = s.fabric := by
  cases l with
  | discovery l =>
      rcases hr : l.receive n with ⟨l', call⟩
      simp only [takeIn, hr]
      cases call with
      | none => exact fabric_notePublished _ _ _
      | some call => exact fabric_notePublished _ _ _
  | recovery target matched =>
      simp only [takeIn]
      split <;> rfl
  | scripted label script => rfl

/-- Whatever happens at a site, its fabric does one thing at most. -/
theorem Step.does {s s' : Site} (h : Step s s') : ∃ entries, s.fabric.Does entries s'.fabric := by
  cases h with
  | join domain profile => exact ⟨_, .join s.fabric domain profile false⟩
  | create domain profile =>
      cases hf : s.fabric.failNextCreate with
      | true =>
          rw [create_of_refused hf]
          exact ⟨_, .configure s.fabric false s.fabric.refuseDeletes⟩
      | false =>
          rw [create_of_accepted hf]
          exact ⟨_, .join s.fabric domain profile true⟩
  | close k =>
      unfold Site.close
      split
      · rename_i hen
        exact ⟨_, .perform (.close hen)⟩
      · exact ⟨_, .nothing _⟩
  | delete k =>
      unfold Site.delete
      split
      · rename_i hd
        exact ⟨_, .perform (.delete hd)⟩
      · exact ⟨_, .nothing _⟩
  | announce h => exact ⟨_, .perform (.announce h)⟩
  | withdraw h =>
      obtain ⟨m, e, hm, he, _⟩ := Fabric.removeEntity_eq_ok h
      exact ⟨_, .perform (.withdraw hm he h)⟩
  | changeQos h => exact ⟨_, .perform (.changeQos h)⟩
  | configure a b => exact ⟨_, .configure s.fabric a b⟩
  | lose hn => exact ⟨_, .take hn⟩
  | hear hn =>
      rw [fabric_takeIn]
      exact ⟨_, .take hn⟩
  | settle => exact ⟨_, .nothing _⟩
  | remark => exact ⟨_, .nothing _⟩

theorem Step.fabric {s s' : Site} (h : Step s s') : Fabric.Step s.fabric s'.fabric := by
  obtain ⟨entries, hdoes⟩ := h.does
  exact hdoes.step

/-- The journal tells the truth of who attends, and the fabric is sound. -/
structure Sound (s : Site) : Prop where
  fabric : s.fabric.Sound
  mem_roll : ∀ a : Attendee, a ∈ s.roll ↔ s.fabric.part? a.handle = some (a.guidPrefix, a.domain)

theorem sound_new (storage : Storage) (processes : ProcessTable) :
    (new storage processes).Sound where
  fabric := Fabric.sound_empty
  mem_roll a := by simp [new, roll, journal, attendance, Fabric.part?, Fabric.empty]

theorem mem_roll_of_join {s : Site} (hs : s.Sound) (domain : UInt32) (profile : Profile)
    (listens : Bool) (a : Attendee) :
    a ∈ s.roll ++ [⟨s.fabric.nextHandle, profile.guidPrefix, domain⟩] ↔
      (s.fabric.join domain profile listens).1.part? a.handle =
        some (a.guidPrefix, a.domain) := by
  have hfresh : s.fabric.part? s.fabric.nextHandle = none := by
    simp [Fabric.part?, hs.fabric.find?_nextHandle]
  obtain ⟨k, p, d⟩ := a
  rw [List.mem_append, hs.mem_roll, Fabric.part?_join, List.mem_singleton]
  split
  · rename_i heq
    simp only at heq
    subst heq
    simp [hfresh, eq_comm]
  · rename_i hne
    simp_all

theorem mem_roll_of_leave {s : Site} (hs : s.Sound) {k : Handle} {f : Fabric}
    (hf : ∀ k', f.part? k' = if k' = k then none else s.fabric.part? k') (a : Attendee) :
    a ∈ s.roll.filter (·.handle != k) ↔ f.part? a.handle = some (a.guidPrefix, a.domain) := by
  rw [List.mem_filter, hs.mem_roll, hf]
  split <;> simp_all

theorem mem_roll_of_stay {s : Site} (hs : s.Sound) {k : Handle} {m m' : Member}
    {ns : List Notification} (hm : s.fabric.members.find? k = some m)
    (hc : m.Change k (some m') ns) (hen : m'.enabled = m.enabled) (a : Attendee) :
    a ∈ s.roll ↔
      (s.fabric.change k m (some m') ns).part? a.handle = some (a.guidPrefix, a.domain) := by
  rw [Fabric.part?_change_of_isLater hm hc.isLater hen]
  exact hs.mem_roll a

theorem Step.mem_roll {s s' : Site} (h : Step s s') (hs : s.Sound) (a : Attendee) :
    a ∈ s'.roll ↔ s'.fabric.part? a.handle = some (a.guidPrefix, a.domain) := by
  cases h with
  | join domain profile =>
      simp only [Site.join, noteJoined, roll_note]
      exact mem_roll_of_join hs domain profile false a
  | create domain profile =>
      cases hf : s.fabric.failNextCreate with
      | true =>
          rw [create_of_refused hf]
          exact hs.mem_roll a
      | false =>
          rw [create_of_accepted hf]
          simp only [noteJoined, roll_note]
          exact mem_roll_of_join hs domain profile true a
  | close k =>
      simp only [Site.close]
      split
      · rename_i hk
        obtain ⟨m, hm, hen⟩ := Fabric.isEnabled_iff.1 hk
        rw [roll_note, fabric_note]
        refine mem_roll_of_leave hs (fun k' => ?_) a
        rw [Fabric.close_of_enabled hm hen, Fabric.part?_change]
        rfl
      · exact hs.mem_roll a
  | delete k =>
      simp only [Site.delete]
      split
      · rename_i fabric hd
        obtain ⟨_, m, hm, rfl⟩ := Fabric.delete_eq_ok hd
        rw [roll_note, fabric_note]
        exact mem_roll_of_leave hs (fun k' => Fabric.part?_change _ _ _ _ _ _) a
      · exact hs.mem_roll a
  | announce h =>
      obtain ⟨m, hm, rfl⟩ := Fabric.addEntity_eq_ok h
      exact mem_roll_of_stay hs hm (.announce _) rfl a
  | withdraw h =>
      obtain ⟨m, e, hm, he, rfl⟩ := Fabric.removeEntity_eq_ok h
      exact mem_roll_of_stay hs hm (.withdraw he) rfl a
  | changeQos h =>
      obtain ⟨m, hm, rfl⟩ := Fabric.updateQos_eq_ok h
      exact mem_roll_of_stay hs hm .changeQos rfl a
  | configure => exact hs.mem_roll a
  | lose hn =>
      rw [(Fabric.next?_eq_some hn).2]
      exact hs.mem_roll a
  | hear hn =>
      rw [roll_takeIn, fabric_takeIn, (Fabric.next?_eq_some hn).2, roll_note]
      exact hs.mem_roll a
  | settle => exact hs.mem_roll a
  | remark hx =>
      rw [roll_note, attend_isRemark hx]
      exact hs.mem_roll a

theorem Step.sound {s s' : Site} (h : Step s s') (hs : s.Sound) : s'.Sound :=
  ⟨h.fabric.sound hs.fabric, h.mem_roll hs⟩

end Site

end Rendezvous
