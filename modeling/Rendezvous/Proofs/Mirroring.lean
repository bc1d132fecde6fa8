import Mathlib.Data.List.Nodup
import Rendezvous.Proofs.Announcements

/-!
# Rosters that mirror a fabric

A roster mirrors the other participants of a domain if it knows all of them and nobody
else. Into the roster of an observer the notifications still on their way to it are to be
folded first. Main statements: the roster so made mirrors the fabric once the observer has
joined, and goes on doing so whatever becomes of a member and whoever joins, as long as
the others go by different prefixes.
-/

namespace Rendezvous

namespace Fabric

/-- The enabled participants of a domain other than an observer. -/
def others (f : Fabric) (domain : UInt32) (observer : Handle) : List (Handle × Member) :=
  (f.present domain).filter (·.1 != observer)

theorem mem_others {f : Fabric} {domain : UInt32} {observer k : Handle} {m : Member} :
    (k, m) ∈ f.others domain observer ↔
      k ≠ observer ∧ f.members.find? k = some m ∧ m.enabled = true ∧ m.domain = domain := by
  simp only [others, List.mem_filter, mem_present, bne_iff_ne]
  exact and_comm

def Apart (f : Fabric) (domain : UInt32) (observer : Handle) : Prop :=
  ∀ ⦃k m k' m'⦄, (k, m) ∈ f.others domain observer → (k', m') ∈ f.others domain observer →
    m.profile.guidPrefix = m'.profile.guidPrefix → k = k'

def bound (f : Fabric) (h : Handle) : List Notification :=
  (f.queue.toList.filter (·.target == h)).map (·.notification)

theorem bound_of_next? {f f' : Fabric} {d : Delivery} (hn : f.next? = some (d, f'))
    (h : Handle) :
    f.bound h = (if d.target = h then [d.notification] else []) ++ f'.bound h := by
  rw [bound, (next?_eq_some hn).1, bound]
  by_cases heq : d.target = h <;> simp [heq]

/-- What is sent to each of several participants is sent to one of them once. -/
theorem filter_flatMap_target {targets : List Handle} (hnodup : targets.Nodup)
    (ns : List Notification) (source h : Handle) :
    (((targets.flatMap fun target => ns.map fun n => (⟨source, target, n⟩ : Delivery)).filter
      (·.target == h)).map (·.notification)) = if h ∈ targets then ns else [] := by
  induction targets with
  | nil => simp
  | cons target targets ih =>
      obtain ⟨hhead, hrest⟩ := List.nodup_cons.1 hnodup
      rw [List.flatMap_cons, List.filter_append, List.map_append, ih hrest]
      by_cases heq : target = h
      · subst heq
        simp [hhead, List.filter_map, Function.comp_def]
      · simp [heq, Ne.symm heq, List.filter_map, Function.comp_def]

theorem bound_change (f : Fabric) (k : Handle) (m : Member) (after : Option Member)
    (ns : List Notification) (h : Handle) :
    (f.change k m after ns).bound h = f.bound h ++
      if m.enabled = true ∧ h ∈ (f.change k m after ns).audience m.domain k then ns else [] := by
  rw [bound, queue_change, List.filter_append, List.map_append, bound]
  cases m.enabled with
  | false => simp
  | true =>
      rw [if_pos rfl, filter_flatMap_target (nodup_audience _ _ _)]
      simp

theorem filter_flatMap_exchange {es : List (Handle × Member)} (hnodup : (es.map (·.1)).Nodup)
    {newcomer h : Handle} (hne : h ≠ newcomer) (m : Member) :
    ((es.flatMap (exchange newcomer m)).filter (·.target == h)).map (·.notification) =
      if h ∈ (es.filter (·.2.listens)).map (·.1) then [m.tellOf newcomer .discovered] else [] := by
  induction es with
  | nil => simp
  | cons e es ih =>
      rw [List.map_cons] at hnodup
      obtain ⟨hhead, hrest⟩ := List.nodup_cons.1 hnodup
      have hfirst : ((exchange newcomer m e).filter (·.target == h)).map (·.notification) =
          if e.2.listens = true ∧ e.1 = h then [m.tellOf newcomer .discovered] else [] := by
        cases hm : m.listens <;> cases he : e.2.listens <;> by_cases heq : e.1 = h <;>
          simp [exchange, hm, he, heq, Ne.symm hne, List.filter_map, Function.comp_def]
      have hmem : h ∈ ((e :: es).filter (·.2.listens)).map (·.1) ↔
          (e.2.listens = true ∧ e.1 = h) ∨ h ∈ (es.filter (·.2.listens)).map (·.1) := by
        cases he : e.2.listens <;> simp [he, @eq_comm _ h]
      have hnot : e.1 = h → h ∉ (es.filter (·.2.listens)).map (·.1) := by
        intro heq hin
        obtain ⟨e', he', heq'⟩ := List.mem_map.1 hin
        exact hhead (heq.trans heq'.symm ▸ List.mem_map_of_mem (List.mem_of_mem_filter he'))
      rw [List.flatMap_cons, List.filter_append, List.map_append, ih hrest, hfirst]
      by_cases hfirst : e.2.listens = true ∧ e.1 = h
      · rw [if_pos hfirst, if_neg (hnot hfirst.2), if_pos (hmem.2 (.inl hfirst)), List.append_nil]
      · simp only [hmem, hfirst, false_or, if_false, List.nil_append]

theorem filter_flatMap_exchange_newcomer {es : List (Handle × Member)} {newcomer : Handle}
    (hne : ∀ e ∈ es, e.1 ≠ newcomer) {m : Member} (hlistens : m.listens = true) :
    ((es.flatMap (exchange newcomer m)).filter (·.target == newcomer)).map (·.notification) =
      es.flatMap fun e => e.2.introduction e.1 := by
  induction es with
  | nil => rfl
  | cons e es ih =>
      have hhead := hne e List.mem_cons_self
      have hfirst : ((exchange newcomer m e).filter (·.target == newcomer)).map
          (·.notification) = e.2.introduction e.1 := by
        cases he : e.2.listens <;>
          simp [exchange, hlistens, he, hhead, List.filter_map, Function.comp_def]
      rw [List.flatMap_cons, List.filter_append, List.map_append, hfirst,
        ih fun e' he' => hne e' (List.mem_cons_of_mem _ he'), List.flatMap_cons]

theorem nodup_present (f : Fabric) (domain : UInt32) :
    ((f.present domain).map (·.1)).Nodup :=
  f.members.nodup_keys.sublist (List.filter_sublist.map _)

/-- A participant that was there before learns of a newcomer in its domain. -/
theorem bound_join {f : Fabric} {h : Handle} {m : Member} (hm : f.members.find? h = some m)
    (hen : m.enabled = true) (hlistens : m.listens = true) (hne : h ≠ f.nextHandle)
    (domain : UInt32) (profile : Profile) (listens : Bool) :
    (f.join domain profile listens).1.bound h = f.bound h ++
      if m.domain = domain then
        [(Member.new domain profile listens).tellOf f.nextHandle .discovered]
      else [] := by
  have hmem : h ∈ ((f.present domain).filter (·.2.listens)).map (·.1) ↔ m.domain = domain := by
    constructor
    · intro hmem
      obtain ⟨⟨k, m'⟩, hk, rfl⟩ := List.mem_map.1 hmem
      obtain ⟨hm', _, hdomain⟩ := mem_present.1 (List.mem_of_mem_filter hk)
      rw [hm] at hm'
      exact Option.some.inj hm' ▸ hdomain
    · intro hdomain
      refine List.mem_map.2 ⟨(h, m), List.mem_filter.2 ⟨?_, hlistens⟩, rfl⟩
      exact mem_present.2 ⟨hm, hen, hdomain⟩
  rw [bound, queue_join, List.filter_append, List.map_append,
    filter_flatMap_exchange (f.nodup_present domain) hne]
  simp only [bound, hmem]

/-- A newcomer learns of all participants of its domain. -/
theorem bound_join_nextHandle {f : Fabric} (hf : f.Sound) (domain : UInt32)
    (profile : Profile) :
    (f.join domain profile true).1.bound f.nextHandle =
      (f.present domain).flatMap fun e => e.2.introduction e.1 := by
  have hbefore : f.queue.toList.filter (·.target == f.nextHandle) = [] := by
    refine List.filter_eq_nil_iff.2 fun d hd => ?_
    intro htarget
    have hissued := hf.target hd
    rw [beq_iff_eq.1 htarget] at hissued
    exact f.not_issued_nextHandle hissued
  have hne : ∀ e ∈ f.present domain, e.1 ≠ f.nextHandle := by
    intro e he heq
    have hissued := hf.member (mem_present.1 he).1
    rw [heq] at hissued
    exact f.not_issued_nextHandle hissued
  rw [bound, queue_join, List.filter_append, hbefore, List.nil_append]
  exact filter_flatMap_exchange_newcomer hne rfl

end Fabric

/-! ## Rosters -/

namespace Roster

/-- Whether a roster knows the others of a domain, all of them and nobody else. -/
def Mirrors (r : Roster) (f : Fabric) (domain : UInt32) (observer : Handle) : Prop :=
  ∀ p known, r.find? p = some known ↔
    ∃ k m, (k, m) ∈ f.others domain observer ∧ m.profile.guidPrefix = p ∧ m.known = known

/-- The roster of an observer, with all that is on its way to it. -/
def withBound (r : Roster) (f : Fabric) (observer : Handle) : Roster :=
  r.afterAll (eventsOf (f.bound observer))

theorem withBound_of_bound_eq {r : Roster} {f f' : Fabric} {observer : Handle}
    {ns : List Notification} (h : f'.bound observer = f.bound observer ++ ns) :
    r.withBound f' observer = (r.withBound f observer).afterAll (eventsOf ns) := by
  rw [withBound, h, eventsOf_append, afterAll_append, withBound]

theorem Mirrors.congr {r : Roster} {f f' : Fabric} {domain : UInt32} {observer : Handle}
    (h : r.Mirrors f domain observer)
    (hothers : ∀ k m, (k, m) ∈ f'.others domain observer ↔ (k, m) ∈ f.others domain observer) :
    r.Mirrors f' domain observer := by
  intro p known
  rw [h p known]
  simp only [hothers]

theorem Mirrors.find?_eq_none {r : Roster} {f : Fabric} {domain : UInt32} {observer : Handle}
    (h : r.Mirrors f domain observer) {p : GuidPrefix}
    (hp : ∀ k m, (k, m) ∈ f.others domain observer → m.profile.guidPrefix ≠ p) :
    r.find? p = none := by
  cases hfind : r.find? p with
  | none => rfl
  | some known =>
      obtain ⟨k, m, hmem, hguid, _⟩ := (h p known).1 hfind
      exact absurd hguid (hp k m hmem)

/-- Where one member takes the place of another under its prefix, and everybody else stays, the
roster has to change under that prefix only. -/
theorem Mirrors.replace {r r' : Roster} {f f' : Fabric} {domain : UInt32} {observer : Handle}
    (h : r.Mirrors f domain observer) {k : Handle} {g : GuidPrefix} {after : Option Member}
    (hfind : ∀ p, r'.find? p = if p = g then after.bind Member.seen else r.find? p)
    (hbefore : ∀ m, (k, m) ∈ f.others domain observer → m.profile.guidPrefix = g)
    (hafter : ∀ m, after = some m → m.profile.guidPrefix = g)
    (hself : ∀ m, (k, m) ∈ f'.others domain observer ↔ after = some m ∧ m.enabled = true)
    (hothers : ∀ k' m, k' ≠ k →
      ((k', m) ∈ f'.others domain observer ↔ (k', m) ∈ f.others domain observer))
    (halone : ∀ k' m, (k', m) ∈ f'.others domain observer → m.profile.guidPrefix = g → k' = k) :
    r'.Mirrors f' domain observer := by
  intro p known
  rw [hfind]
  by_cases hp : p = g
  · rw [if_pos hp]
    constructor
    · intro hseen
      obtain ⟨m, hm, hseen⟩ := Option.bind_eq_some_iff.1 hseen
      obtain ⟨hen, hknown⟩ := Member.seen_eq_some_iff.1 hseen
      exact ⟨k, m, (hself m).2 ⟨hm, hen⟩, (hafter m hm).trans hp.symm, hknown⟩
    · rintro ⟨k', m, hmem, hguid, rfl⟩
      obtain rfl := halone k' m hmem (hguid.trans hp)
      obtain ⟨rfl, hen⟩ := (hself m).1 hmem
      exact Member.seen_eq_some_iff.2 ⟨hen, rfl⟩
  · rw [if_neg hp, h p known]
    constructor
    · rintro ⟨k', m, hmem, hguid, hknown⟩
      have hk' : k' ≠ k := by
        rintro rfl
        exact hp (hguid.symm.trans (hbefore m hmem))
      exact ⟨k', m, (hothers k' m hk').2 hmem, hguid, hknown⟩
    · rintro ⟨k', m, hmem, hguid, hknown⟩
      have hk' : k' ≠ k := by
        rintro rfl
        exact hp (hguid.symm.trans (hafter m ((hself m).1 hmem).1))
      exact ⟨k', m, (hothers k' m hk').1 hmem, hguid, hknown⟩

/-! ## What becomes of members -/

section Observed

variable {r : Roster} {f : Fabric} {domain : UInt32} {observer : Handle} {watcher : Member}

/-- A change of a member that is no other of the domain is no concern of the observer. -/
theorem Mirrors.change_of_not_mem (h : (r.withBound f observer).Mirrors f domain observer)
    (hwatcher : f.members.find? observer = some watcher) (hdomain : watcher.domain = domain)
    {k : Handle} {m : Member} {after : Option Member} {ns : List Notification}
    (hm : f.members.find? k = some m) (hc : m.Change k after ns)
    (hnot : (k, m) ∉ f.others domain observer) :
    (r.withBound (f.change k m after ns) observer).Mirrors (f.change k m after ns) domain
      observer := by
  have hbound : (f.change k m after ns).bound observer = f.bound observer ++ [] := by
    rw [Fabric.bound_change, if_neg]
    rintro ⟨hen, haudience⟩
    obtain ⟨hne, m', hm', _, hdomain', _⟩ := Fabric.mem_audience.1 haudience
    rw [Fabric.members_change, OrderedMap.find?_alter, if_neg hne, hwatcher] at hm'
    have hsame : m.domain = domain := by rw [← hdomain', ← Option.some.inj hm', hdomain]
    exact hnot (Fabric.mem_others.2 ⟨Ne.symm hne, hm, hen, hsame⟩)
  rw [withBound_of_bound_eq hbound]
  refine h.congr fun k' m' => ?_
  rw [Fabric.mem_others, Fabric.mem_others, Fabric.members_change, OrderedMap.find?_alter]
  by_cases heq : k' = k
  · subst heq
    rw [if_pos rfl]
    constructor
    · rintro ⟨hne, hafter, hen, hdomain'⟩
      subst hafter
      have hlater := hc.isLater
      have hmem : (k', m) ∈ f.others domain observer :=
        Fabric.mem_others.2 ⟨hne, hm, hlater.enabled hen, hlater.domain.symm.trans hdomain'⟩
      exact absurd hmem hnot
    · rintro ⟨hne, hm', hen, hdomain'⟩
      rw [hm] at hm'
      cases hm'
      exact absurd (Fabric.mem_others.2 ⟨hne, hm, hen, hdomain'⟩) hnot
  · rw [if_neg heq]

/-- The observer takes in what becomes of another participant of its domain. -/
theorem Mirrors.change_of_mem (h : (r.withBound f observer).Mirrors f domain observer)
    (hapart : f.Apart domain observer) (hwatcher : f.members.find? observer = some watcher)
    (hdomain : watcher.domain = domain) (hen : watcher.enabled = true)
    (hlistens : watcher.listens = true) {k : Handle} {m : Member} {after : Option Member}
    {ns : List Notification} (hc : m.Change k after ns)
    (hmem : (k, m) ∈ f.others domain observer) :
    (r.withBound (f.change k m after ns) observer).Mirrors (f.change k m after ns) domain
      observer := by
  obtain ⟨hne, hm, hmen, hmdomain⟩ := Fabric.mem_others.1 hmem
  have hbound : (f.change k m after ns).bound observer = f.bound observer ++ ns := by
    rw [Fabric.bound_change, if_pos]
    refine ⟨hmen, Fabric.mem_audience.2 ⟨hne.symm, watcher, ?_, hen, ?_, hlistens⟩⟩
    · rw [Fabric.members_change, OrderedMap.find?_alter, if_neg hne.symm, hwatcher]
    · rw [hdomain, hmdomain]
  -- Under its prefix the member was alone, so nothing else is to change on the roster.
  have hothers : ∀ k' m', k' ≠ k → ((k', m') ∈ (f.change k m after ns).others domain observer ↔
      (k', m') ∈ f.others domain observer) := by
    intro k' m' hk'
    rw [Fabric.mem_others, Fabric.mem_others, Fabric.members_change, OrderedMap.find?_alter,
      if_neg hk']
  have hself : ∀ m', (k, m') ∈ (f.change k m after ns).others domain observer ↔
      after = some m' ∧ m'.enabled = true := by
    intro m'
    rw [Fabric.mem_others, Fabric.members_change, OrderedMap.find?_alter, if_pos rfl]
    constructor
    · rintro ⟨_, hafter, hen', _⟩
      exact ⟨hafter, hen'⟩
    · rintro ⟨rfl, hen'⟩
      exact ⟨hne, rfl, hen', hc.isLater.domain.trans hmdomain⟩
  rw [withBound_of_bound_eq hbound]
  refine h.replace (k := k) (g := m.profile.guidPrefix) (fun p => ?_) (fun m' hmem' => ?_)
    (fun m' hafter => ?_) hself hothers fun k' m' hmem' hguid => ?_
  · rw [find?_afterAll_of_same fun e he => hc.guidPrefix_of_mem_eventsOf he]
    by_cases hp : p = m.profile.guidPrefix
    · have hknown : (r.withBound f observer).find? p = some m.known :=
        (h p m.known).2 ⟨k, m, hmem, hp.symm, rfl⟩
      rw [if_pos hp, if_pos hp, hknown, hc.foldl_afterEvent hmen]
    · rw [if_neg hp, if_neg hp]
  · have hm' := (Fabric.mem_others.1 hmem').2.1
    rw [hm] at hm'
    cases hm'
    rfl
  · subst hafter
    rw [hc.isLater.profile]
  · by_cases hk' : k' = k
    · exact hk'
    · exact hapart ((hothers k' m' hk').1 hmem') hmem hguid

theorem Mirrors.change (h : (r.withBound f observer).Mirrors f domain observer)
    (hapart : f.Apart domain observer) (hwatcher : f.members.find? observer = some watcher)
    (hdomain : watcher.domain = domain) (hen : watcher.enabled = true)
    (hlistens : watcher.listens = true) {k : Handle} {m : Member} {after : Option Member}
    {ns : List Notification} (hm : f.members.find? k = some m) (hc : m.Change k after ns) :
    (r.withBound (f.change k m after ns) observer).Mirrors (f.change k m after ns) domain
      observer := by
  by_cases hmem : (k, m) ∈ f.others domain observer
  · exact h.change_of_mem hapart hwatcher hdomain hen hlistens hc hmem
  · exact h.change_of_not_mem hwatcher hdomain hm hc hmem

/-! ## Who joins -/

theorem mem_others_join (newDomain : UInt32) (profile : Profile) (listens : Bool) (k : Handle)
    (m : Member) (hne : k ≠ f.nextHandle) :
    (k, m) ∈ (f.join newDomain profile listens).1.others domain observer ↔
      (k, m) ∈ f.others domain observer := by
  rw [Fabric.mem_others, Fabric.mem_others, Fabric.members_join, OrderedMap.find?_insert,
    if_neg hne]

theorem Mirrors.join (h : (r.withBound f observer).Mirrors f domain observer)
    (hf : f.Sound) (hwatcher : f.members.find? observer = some watcher)
    (hdomain : watcher.domain = domain) (hen : watcher.enabled = true)
    (hlistens : watcher.listens = true) (newDomain : UInt32) (profile : Profile)
    (listens : Bool) (hapart : (f.join newDomain profile listens).1.Apart domain observer) :
    (r.withBound (f.join newDomain profile listens).1 observer).Mirrors
      (f.join newDomain profile listens).1 domain observer := by
  have hobserver : observer ≠ f.nextHandle := by
    rintro rfl
    exact f.not_issued_nextHandle (hf.member hwatcher)
  have hbound := Fabric.bound_join hwatcher hen hlistens hobserver newDomain profile listens
  have hold : ∀ k m, (k, m) ∈ f.others domain observer → k ≠ f.nextHandle := by
    rintro k m hmem rfl
    exact f.not_issued_nextHandle (hf.member (Fabric.mem_others.1 hmem).2.1)
  have hnew : ∀ m', (f.nextHandle, m') ∈
      (f.join newDomain profile listens).1.others domain observer ↔
      m' = .new newDomain profile listens ∧ newDomain = domain := by
    intro m'
    rw [Fabric.mem_others, Fabric.members_join, OrderedMap.find?_insert, if_pos rfl]
    constructor
    · rintro ⟨_, hm', _, hdomain'⟩
      cases hm'
      exact ⟨rfl, hdomain'⟩
    · rintro ⟨rfl, rfl⟩
      exact ⟨hobserver.symm, rfl, rfl, rfl⟩
  rw [withBound_of_bound_eq hbound]
  by_cases hsame : newDomain = domain
  · rw [if_pos (hdomain.trans hsame.symm)]
    have hself : ∀ m, (f.nextHandle, m) ∈
        (f.join newDomain profile listens).1.others domain observer ↔
        some (Member.new newDomain profile listens) = some m ∧ m.enabled = true := by
      intro m
      rw [hnew]
      constructor
      · rintro ⟨rfl, _⟩
        exact ⟨rfl, rfl⟩
      · rintro ⟨hm, _⟩
        exact ⟨(Option.some.inj hm).symm, hsame⟩
    have hmem := (hself _).2 ⟨rfl, rfl⟩
    have hnone : (r.withBound f observer).find? profile.guidPrefix = none := by
      refine h.find?_eq_none fun k m hmem' hguid => hold k m hmem' ?_
      exact hapart ((mem_others_join _ _ _ k m (hold k m hmem')).2 hmem') hmem hguid
    refine h.replace (g := profile.guidPrefix) (fun p => ?_)
      (fun m hmem' => absurd rfl (hold _ m hmem')) (fun m hm => ?_) hself
      (fun k m hk => mem_others_join _ _ _ k m hk)
      fun k m hmem' hguid => hapart hmem' hmem hguid
    · -- A newcomer has no reader or writer to introduce besides itself.
      have hintroduction : [(Member.new newDomain profile listens).tellOf f.nextHandle .discovered] =
          (Member.new newDomain profile listens).introduction f.nextHandle := rfl
      rw [hintroduction,
        find?_afterAll_of_same fun e he => Member.guidPrefix_of_mem_eventsOf_introduction he]
      refine ite_congr rfl (fun hp => ?_) fun _ => rfl
      rw [show p = profile.guidPrefix from hp, hnone, Member.foldl_afterEvent_introduction]
      rfl
    · cases hm
      rfl
  · rw [if_neg fun heq => hsame (heq.symm.trans hdomain)]
    refine h.congr fun k m => ?_
    by_cases hk : k = f.nextHandle
    · subst hk
      rw [hnew]
      exact iff_of_false (fun hboth => hsame hboth.2) fun hmem => hold _ m hmem rfl
    · exact mem_others_join _ _ _ k m hk

end Observed

/-! ## The observer itself joins -/

theorem find?_afterAll_introductions {es : List (Handle × Member)}
    (hnodup : (es.map (·.2.profile.guidPrefix)).Nodup) (r : Roster)
    (hr : ∀ e ∈ es, r.find? e.2.profile.guidPrefix = none) (p : GuidPrefix)
    (known : KnownParticipant) :
    (r.afterAll (eventsOf (es.flatMap fun e => e.2.introduction e.1))).find? p = some known ↔
      r.find? p = some known ∨
        ∃ e ∈ es, e.2.profile.guidPrefix = p ∧ e.2.known = known := by
  induction es generalizing r with
  | nil => simp [afterAll, eventsOf]
  | cons e es ih =>
      rw [List.map_cons] at hnodup
      obtain ⟨hhead, hrest⟩ := List.nodup_cons.1 hnodup
      have hfind : ∀ q, (r.afterAll (eventsOf (e.2.introduction e.1))).find? q =
          if q = e.2.profile.guidPrefix then some e.2.known else r.find? q := by
        intro q
        rw [find?_afterAll_of_same fun e' he' =>
          Member.guidPrefix_of_mem_eventsOf_introduction he']
        split
        · rename_i heq
          rw [heq, hr e List.mem_cons_self, Member.foldl_afterEvent_introduction]
        · rfl
      have hothers : ∀ e' ∈ es, (r.afterAll (eventsOf (e.2.introduction e.1))).find?
          e'.2.profile.guidPrefix = none := by
        intro e' he'
        have hne : e'.2.profile.guidPrefix ≠ e.2.profile.guidPrefix := by
          intro heq
          exact hhead (heq ▸ List.mem_map_of_mem he')
        rw [hfind, if_neg hne]
        exact hr e' (List.mem_cons_of_mem _ he')
      rw [List.flatMap_cons, eventsOf_append, afterAll_append, ih hrest _ hothers, hfind]
      by_cases hp : p = e.2.profile.guidPrefix
      · simp [hp, hr e List.mem_cons_self]
      · simp [hp, Ne.symm hp]

/-- Once the observer has joined, an empty roster with all that is on its way mirrors the
fabric. -/
theorem mirrors_join_nextHandle {f : Fabric} (hf : f.Sound) (domain : UInt32)
    (profile : Profile)
    (hapart : (f.join domain profile true).1.Apart domain f.nextHandle) :
    (withBound .empty (f.join domain profile true).1 f.nextHandle).Mirrors
      (f.join domain profile true).1 domain f.nextHandle := by
  have hold : ∀ e ∈ f.present domain, e.1 ≠ f.nextHandle := by
    intro e he heq
    have hissued := hf.member (Fabric.mem_present.1 he).1
    rw [heq] at hissued
    exact f.not_issued_nextHandle hissued
  have hmem : ∀ k m, (k, m) ∈ (f.join domain profile true).1.others domain f.nextHandle ↔
      (k, m) ∈ f.present domain := by
    intro k m
    rw [Fabric.mem_others, Fabric.mem_present, Fabric.members_join, OrderedMap.find?_insert]
    constructor
    · rintro ⟨hne, hrest⟩
      rw [if_neg hne] at hrest
      exact hrest
    · intro hrest
      have hne : k ≠ f.nextHandle := hold (k, m) (Fabric.mem_present.2 hrest)
      rw [if_neg hne]
      exact ⟨hne, hrest⟩
  have hnodup : ((f.present domain).map (·.2.profile.guidPrefix)).Nodup := by
    have hentries : (f.present domain).Nodup := List.Nodup.of_map _ (f.nodup_present domain)
    refine List.Nodup.map_on (fun e he e' he' hsame => ?_) hentries
    have hk : e.1 = e'.1 := hapart ((hmem _ _).2 he) ((hmem _ _).2 he') hsame
    have hm := (Fabric.mem_present.1 he).1
    have hm' := (Fabric.mem_present.1 he').1
    rw [hk, hm'] at hm
    exact Prod.ext hk (Option.some.inj hm).symm
  intro p known
  rw [withBound, Fabric.bound_join_nextHandle hf,
    find?_afterAll_introductions hnodup .empty fun _ _ => OrderedMap.find?_empty _]
  rw [OrderedMap.find?_empty]
  simp only [reduceCtorEq, false_or, Prod.exists, hmem]

end Roster

end Rendezvous
