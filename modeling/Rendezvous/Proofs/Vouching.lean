import Rendezvous.Proofs.Histories
import Rendezvous.Proofs.Recovery
import Rendezvous.Proofs.Sparing

/-!
# What records vouch for

A record is written by a start only, once the server is there. Whoever takes the server of a
domain from it afterwards clears the record of that domain, a recovery as well: it clears
the record as soon as it has matched anybody. Main statements: what spares the servers keeps
every record vouched for; clearing the record of a domain makes up for its server; and a
recovery takes servers from its own domain only, and then has matched them.
-/

namespace Rendezvous

namespace Fabric

/-- Whether a participant was given out for one domain and is in no other. -/
structure BelongsTo (f : Fabric) (k : Handle) (domain : UInt32) : Prop where
  issued : f.Issued k
  member : ∀ {m}, f.members.find? k = some m → m.domain = domain

variable {f f' : Fabric} {k : Handle} {domain : UInt32}

theorem BelongsTo.of_isLater (h : f.BelongsTo k domain) (hlater : f'.IsLater f) :
    f'.BelongsTo k domain where
  issued := hlater.issued h.issued
  member hm := by
    obtain ⟨was, hwas, hl⟩ := hlater.member h.issued hm
    rw [hl.domain]
    exact h.member hwas

theorem BelongsTo.eq_of_part? (h : f.BelongsTo k domain) {p : GuidPrefix} {domain' : UInt32}
    (hpart : f.part? k = some (p, domain')) : domain' = domain := by
  obtain ⟨m, hm, _, _, rfl⟩ := part?_eq_some_iff.1 hpart
  exact h.member hm

end Fabric

namespace Site

/-- Whether a participant that was started as the server of a domain, one excepted, takes part
there. -/
def ServedBut (except : Option Handle) (s : Site) (domain : UInt32) : Prop :=
  ∃ k p p', some k ≠ except ∧ .noticed (.serverStarted p domain k) ∈ s.journal ∧
    s.fabric.part? k = some (p', domain)

structure Heeds (kept : Handle → Prop) (s : Site) : Prop where
  started : ∀ {p domain k}, .noticed (.serverStarted p domain k) ∈ s.journal → kept k
  calls : s.CallsSpare kept

section Serving

variable {kept kept' : Handle → Prop} {s s' : Site} {except : Option Handle} {domain : UInt32}

theorem Heeds.earlier (h : s'.Heeds kept) (hgrows : s.journal <+: s'.journal) : s.Heeds kept :=
  ⟨fun hmem => h.started (hgrows.subset hmem), h.calls.earlier hgrows⟩

/-- A domain stays served as long as those who serve it are kept. -/
theorem ServedBut.of_kept (h : s.ServedBut except domain) (hs : s.Sound) (hrow : Moves s s')
    (hkept : ∀ {k p p'}, some k ≠ except → .noticed (.serverStarted p domain k) ∈ s.journal →
      s.fabric.part? k = some (p', domain) → s'.fabric.isEnabled k = true) :
    s'.ServedBut except domain := by
  obtain ⟨k, p, p', hne, hstarted, hpart⟩ := h
  have hen := hkept hne hstarted hpart
  exact ⟨k, p, p', hne, hrow.journal_grows.subset hstarted,
    hrow.isLater.part?_eq hs.fabric hpart hen⟩

theorem ServedBut.keeps (h : s.ServedBut except domain) (hs : s.Sound) (hrow : Moves s s')
    (hkeeps : s.Keeps kept s') (hheeds : s.Heeds kept) : s'.ServedBut except domain := by
  apply h.of_kept hs hrow
  intro k p p' _ hstarted hpart
  exact hkeeps.isEnabled (hheeds.started hstarted) (Fabric.isEnabled_of_part? hpart)

theorem ServedBut.weaken (h : s.ServedBut except domain) : s.ServedBut none domain := by
  obtain ⟨k, p, p', _, hstarted, hpart⟩ := h
  exact ⟨k, p, p', Option.some_ne_none k, hstarted, hpart⟩

end Serving

/-- Whether deletions are accepted, listeners spare some participants, and every record, the one
of an excepted domain apart, stands for a server that takes part. -/
structure VouchedBut (store : Store) (good : Storage → Prop) (kept : Handle → Prop)
    (except : Option UInt32) (s : Site) : Prop where
  sound : s.Sound
  routes : s.Routes
  good : good s.storage
  accepts : s.fabric.refuseDeletes = false
  listeners : s.SparesBut kept none
  served : ∀ {domain record}, some domain ≠ except →
    store.load s.storage domain = .ok (some record) → s.ServedBut none domain

section Vouching

variable {store : Store} {good : Storage → Prop} {kept : Handle → Prop} {s s' : Site}
  {except : Option UInt32} {domain : UInt32} {k : Handle}

theorem VouchedBut.weaken (h : s.VouchedBut store good kept none) (except : Option UInt32) :
    s.VouchedBut store good kept except :=
  { h with served := fun _ hload => h.served (Option.some_ne_none _) hload }

theorem VouchedBut.keeps (h : s.VouchedBut store good kept except) (hrow : Moves s s')
    (hkeeps : s.Keeps kept s') (hstorage : s'.storage = s.storage) (hheeds : s.Heeds kept) :
    s'.VouchedBut store good kept except where
  sound := hrow.sound h.sound
  routes := hrow.routes h.sound h.routes
  good := hstorage.symm ▸ h.good
  accepts := hkeeps.accepts h.accepts
  listeners := h.listeners.keeps hkeeps
  served hne hload := by
    rw [hstorage] at hload
    exact (h.served hne hload).keeps h.sound hrow hkeeps hheeds

theorem VouchedBut.note (h : s.VouchedBut store good kept except) {notice : Notice}
    (hnotice : notice.IsOfServer) (hheeds : s.Heeds kept) :
    (s.note (.noticed notice)).VouchedBut store good kept except :=
  h.keeps (.single (.tell s hnotice)) (keeps_note s _) rfl hheeds

theorem VouchedBut.drains (h : s.VouchedBut store good kept except) (hdrains : s.Drains s')
    (hheeds : s'.Heeds kept) : s'.VouchedBut store good kept except := by
  have hsteps := hdrains.steps
  exact h.keeps hsteps.moves (h.listeners.keeps_drains hdrains hheeds.calls)
    hsteps.sameRecords.storage (hheeds.earlier hsteps.moves.journal_grows)

/-- The one record that is not vouched for is that of the domain that somebody is taken from. -/
theorem VouchedBut.of_leave (h : s.VouchedBut store good kept (some domain)) (hstep : Step s s')
    (hlisteners : s'.listeners = s.listeners) (haccepts : s'.fabric.refuseDeletes = false)
    (hothers : s.Keeps (· ≠ k) s') (hk : s.fabric.BelongsTo k domain) :
    s'.VouchedBut store good kept (some domain) where
  sound := hstep.sound h.sound
  routes := (Move.step hstep).routes h.sound h.routes
  good := hstep.keeps.1.symm ▸ h.good
  accepts := haccepts
  listeners := h.listeners.of_same hstep.fabric.isLater hlisteners
  served := by
    intro domain' record hne hload
    rw [hstep.keeps.1] at hload
    apply (h.served hne hload).of_kept h.sound (.single (.step hstep))
    intro k' p p' _ _ hpart
    have hother : k' ≠ k := by
      rintro rfl
      exact hne (congrArg some (hk.eq_of_part? hpart))
    exact hothers.isEnabled hother (Fabric.isEnabled_of_part? hpart)

theorem VouchedBut.close (h : s.VouchedBut store good kept (some domain))
    (hk : s.fabric.BelongsTo k domain) : (s.close k).VouchedBut store good kept (some domain) := by
  have hothers : s.Keeps (· ≠ k) (s.close k) := keeps_close (by simp)
  exact h.of_leave (.close s k) (listeners_close s k) (hothers.accepts h.accepts) hothers hk

theorem VouchedBut.delete (h : s.VouchedBut store good kept (some domain))
    (hk : s.fabric.BelongsTo k domain) :
    (s.delete k).1.VouchedBut store good kept (some domain) := by
  have hothers : s.Keeps (· ≠ k) (s.delete k).1 := keeps_delete (by simp)
  exact h.of_leave (.delete s k) (listeners_delete s k) (hothers.accepts h.accepts) hothers hk

theorem VouchedBut.of_storage (h : s.VouchedBut store good kept except) {storage : Storage}
    (hgood : good storage) (hserved : ∀ {domain record},
      store.load storage domain = .ok (some record) → s.ServedBut none domain) :
    { s with storage }.VouchedBut store good kept none where
  sound := (Move.keep s storage).sound h.sound
  routes := (Move.keep s storage).routes h.sound h.routes
  good := hgood
  accepts := h.accepts
  listeners := h.listeners
  served _ hload := hserved hload

theorem VouchedBut.clearRecord (h : s.VouchedBut store good kept (some domain))
    (hstore : store.Reliable good) :
    (s.clearRecord store domain).VouchedBut store good kept none := by
  obtain ⟨storage, hclear, hgood, hload⟩ := hstore.clear domain h.good
  simp only [Site.clearRecord, hclear]
  apply h.of_storage hgood
  intro domain' record hfound
  rw [hload] at hfound
  split at hfound
  · cases hfound
  · rename_i hne
    exact h.served (fun heq => hne (Option.some.inj heq)) hfound

theorem VouchedBut.saveRecord (h : s.VouchedBut store good kept none)
    (hstore : store.Reliable good) {record : ServerRecord}
    (hserved : s.ServedBut none record.domain) :
    (s.saveRecord store record).VouchedBut store good kept none := by
  obtain ⟨storage, hsave, hgood, hload⟩ := hstore.save record h.good
  simp only [Site.saveRecord, hsave]
  apply h.of_storage hgood
  intro domain' record' hfound
  rw [hload] at hfound
  split at hfound
  · rename_i heq
    rw [heq]
    exact hserved
  · exact h.served (Option.some_ne_none _) hfound

end Vouching

/-! ## While a recovery participant is there -/

/-- Whether the participant of a recovery is there, and every record stands for a server that takes
part, unless it is that of the domain in question and somebody was matched there. -/
structure Scouting (store : Store) (good : Storage → Prop) (kept : Handle → Prop)
    (domain : UInt32) (scout : Handle) (s : Site) : Prop where
  sound : s.Sound
  routes : s.Routes
  good : good s.storage
  accepts : s.fabric.refuseDeletes = false
  listeners : s.SparesBut kept (some scout)
  recovers : ∃ target matched, s.listeners.find? scout = some (.recovery target matched)
  belongs : s.fabric.BelongsTo scout domain
  served : ∀ {domain' record}, store.load s.storage domain' = .ok (some record) →
    s.ServedBut (some scout) domain' ∨ domain' = domain ∧ 0 < s.matchedBy scout

theorem discovers?_eq_some {target : GuidPrefix} {n : Notification} {k : Handle}
    (h : discovers? target n = some k) : ∃ profile, n.subject = .participant k profile := by
  unfold discovers? at h
  split at h
  · rename_i k' profile _ hsubject
    split at h
    · cases h
      exact ⟨profile, hsubject⟩
    · cases h
  · cases h

section Scouting

variable {store : Store} {good : Storage → Prop} {kept : Handle → Prop} {s s' : Site}
  {domain : UInt32} {scout : Handle}

theorem Scouting.of_steps (h : s.Scouting store good kept domain scout) (hsteps : Steps s s')
    (haccepts : s'.fabric.refuseDeletes = false) (hlisteners : s'.SparesBut kept (some scout))
    (hrecovers : ∃ target matched, s'.listeners.find? scout = some (.recovery target matched))
    (hserved : ∀ {domain'}, s.ServedBut (some scout) domain' ∨ domain' = domain ∧
      0 < s.matchedBy scout → s'.ServedBut (some scout) domain' ∨ domain' = domain ∧
        0 < s'.matchedBy scout) :
    s'.Scouting store good kept domain scout where
  sound := hsteps.moves.sound h.sound
  routes := hsteps.moves.routes h.sound h.routes
  good := hsteps.sameRecords.storage.symm ▸ h.good
  accepts := haccepts
  listeners := hlisteners
  recovers := hrecovers
  belongs := h.belongs.of_isLater hsteps.moves.isLater
  served hload := by
    rw [hsteps.sameRecords.storage] at hload
    exact hserved (h.served hload)

section Delivery

variable {d : Delivery} {fabric : Fabric} (h : s.Scouting store good kept domain scout)
  (hn : s.fabric.next? = some (d, fabric))

include h hn

theorem Scouting.elsewhere (hne : scout ≠ d.target)
    (hheeds : ({ s with fabric }.deliver d).Heeds kept) :
    ({ s with fabric }.deliver d).Scouting store good kept domain scout := by
  have hsteps : Steps s ({ s with fabric }.deliver d) := steps_of_step? (by rw [step?, hn]; rfl)
  have hother : some d.target ≠ some scout := fun heq => hne (Option.some.inj heq).symm
  have hkeeps := h.listeners.keeps_deliver hn hother hheeds.calls
  have hissued : fabric.Issued scout := (Fabric.Step.take hn).isLater.issued h.belongs.issued
  have hsame : ({ s with fabric }.deliver d).listeners.find? scout = s.listeners.find? scout :=
    find?_listeners_deliver_of_ne (s := { s with fabric }) hissued hne
  apply h.of_steps hsteps (hkeeps.accepts h.accepts) (h.listeners.keeps hkeeps)
  · rw [hsame]
    exact h.recovers
  · intro domain' hbefore
    rw [matchedBy, hsame]
    apply hbefore.imp_left
    intro hserved
    exact hserved.keeps h.sound hsteps.moves hkeeps (hheeds.earlier hsteps.moves.journal_grows)

/-- A delivery that deletes nobody changes nothing that matters. -/
theorem Scouting.overhears (hsteps : Steps s s') (hfabric : s'.fabric = fabric)
    (hlisteners : s'.listeners = s.listeners) : s'.Scouting store good kept domain scout := by
  apply h.of_steps hsteps
  · rw [hfabric, (Fabric.next?_eq_some hn).2]
    exact h.accepts
  · exact h.listeners.of_same hsteps.moves.isLater hlisteners
  · rw [hlisteners]
    exact h.recovers
  · intro domain' hbefore
    rw [matchedBy, hlisteners]
    apply hbefore.imp_left
    intro hserved
    apply hserved.of_kept h.sound hsteps.moves
    intro k p p' _ _ hpart
    rw [hfabric, Fabric.isEnabled_of_next? hn]
    exact Fabric.isEnabled_of_part? hpart

theorem Scouting.belongs_source (htarget : d.target = scout)
    (hen : fabric.isEnabled scout = true) : s.fabric.BelongsTo d.source domain := by
  have hrouted : s.fabric.Routed d := by
    apply h.routes.queue
    rw [(Fabric.next?_eq_some hn).1]
    exact List.mem_cons_self
  refine ⟨hrouted.source, fun {m} hm => ?_⟩
  rw [Fabric.isEnabled_of_next? hn] at hen
  obtain ⟨ms, hms, _⟩ := Fabric.isEnabled_iff.1 hen
  have hsame := hrouted.sameDomain hm (htarget ▸ hms)
  exact hsame.trans (h.belongs.member hms)

/-- Whom the recovery participant deletes is of its own domain, and is counted. -/
theorem Scouting.kills (htarget : d.target = scout) (hen : fabric.isEnabled scout = true)
    {target : GuidPrefix} {matched : Nat} {k : Handle}
    (hdiscovers : discovers? target d.notification = some k)
    (hsteps : Steps s ((({ s with fabric }.note (.delivered d none)).setListener scout
      (.recovery target (matched + 1))).delete k).1) :
    ((({ s with fabric }.note (.delivered d none)).setListener scout
      (.recovery target (matched + 1))).delete k).1.Scouting store good kept domain scout := by
  let counted := ({ s with fabric }.note (.delivered d none)).setListener scout
    (.recovery target (matched + 1))
  have hbelongs : s.fabric.BelongsTo k domain := by
    obtain ⟨profile, hsubject⟩ := discovers?_eq_some hdiscovers
    have hdue : d ∈ s.fabric.queue.toList := by
      rw [(Fabric.next?_eq_some hn).1]
      exact List.mem_cons_self
    rw [(h.routes.queue d hdue).subject hsubject]
    exact h.belongs_source hn htarget hen
  have hfind : ∀ k', (counted.delete k).1.listeners.find? k' =
      if k' = scout then some (.recovery target (matched + 1)) else s.listeners.find? k' := by
    intro k'
    rw [listeners_delete]
    exact OrderedMap.find?_insert _ _ _ _
  have hmatched : 0 < (counted.delete k).1.matchedBy scout := by
    rw [matchedBy, hfind, if_pos rfl]
    exact Nat.succ_pos _
  have hothers : counted.Keeps (· ≠ k) (counted.delete k).1 := keeps_delete (by simp)
  apply h.of_steps hsteps
  · apply hothers.accepts
    show fabric.refuseDeletes = false
    rw [(Fabric.next?_eq_some hn).2]
    exact h.accepts
  · apply h.listeners.of_found hsteps.moves.isLater
    intro k' l hne hl
    rw [hfind, if_neg fun heq => hne (congrArg some heq)] at hl
    exact .inr ⟨hne, hl⟩
  · exact ⟨target, matched + 1, by rw [hfind, if_pos rfl]⟩
  · intro domain' hbefore
    by_cases hdomain : domain' = domain
    · exact .inr ⟨hdomain, hmatched⟩
    · left
      rcases hbefore with hserved | ⟨heq, _⟩
      · apply hserved.of_kept h.sound hsteps.moves
        intro k' p p' _ _ hpart
        have hother : k' ≠ k := by
          rintro rfl
          exact hdomain (hbelongs.eq_of_part? hpart)
        apply hothers.isEnabled hother
        show fabric.isEnabled k' = true
        rw [Fabric.isEnabled_of_next? hn]
        exact Fabric.isEnabled_of_part? hpart
      · exact absurd heq hdomain

end Delivery

theorem Scouting.step (h : s.Scouting store good kept domain scout) (hstep : s.step? = some s')
    (hheeds : s'.Heeds kept) : s'.Scouting store good kept domain scout := by
  have hsteps := steps_of_step? hstep
  obtain ⟨d, fabric, hn, rfl⟩ := exists_deliver_of_step? hstep
  by_cases htarget : d.target = scout
  · obtain ⟨target, matched, hl⟩ := h.recovers
    cases hen : fabric.isEnabled scout with
    | false =>
        have hlost : ({ s with fabric }.deliver d) = { s with fabric } := by
          simp [deliver, htarget, hen]
        rw [hlost] at hsteps ⊢
        exact h.overhears hn hsteps rfl rfl
    | true =>
        have hmade : ({ s with fabric }.deliver d) = ({ s with fabric }.note
            (.delivered d none)).hear scout (.recovery target matched) d.notification := by
          simp [deliver, htarget, hen, hl, Listener.label?]
        rw [hmade] at hsteps ⊢
        cases hdiscovers : discovers? target d.notification with
        | none =>
            simp only [hear, hdiscovers] at hsteps ⊢
            exact h.overhears hn hsteps rfl rfl
        | some k =>
            simp only [hear, hdiscovers] at hsteps ⊢
            exact h.kills hn htarget hen hdiscovers hsteps
  · exact h.elsewhere hn (Ne.symm htarget) hheeds

theorem Scouting.drains (h : s.Scouting store good kept domain scout) (hdrains : s.Drains s')
    (hheeds : s'.Heeds kept) : s'.Scouting store good kept domain scout := by
  induction hdrains with
  | refl => exact h
  | head hstep hrest ih =>
      have hearlier := hheeds.earlier hrest.steps.moves.journal_grows
      exact ih (h.step hstep hearlier) hheeds

theorem VouchedBut.scouting_create (h : s.VouchedBut store good kept none)
    (haccepted : s.fabric.failNextCreate = false) (domain : UInt32) (profile : Profile)
    (target : GuidPrefix) :
    (s.create domain profile (.recovery target 0)).1.Scouting store good kept domain
      s.fabric.nextHandle := by
  have hmove : Move s (s.create domain profile (.recovery target 0)).1 :=
    .step (.create s domain profile (.recovery target))
  have hlater := hmove.isLater
  have hsound := hmove.sound h.sound
  have hroutes := hmove.routes h.sound h.routes
  have hgrows := hmove.journal_grows
  rw [create_of_accepted haccepted] at hlater hsound hroutes hgrows ⊢
  have hfind : ∀ k, (s.setListener s.fabric.nextHandle (.recovery target 0)).listeners.find? k =
      if k = s.fabric.nextHandle then some (.recovery target 0) else s.listeners.find? k :=
    fun k => OrderedMap.find?_insert _ _ _ _
  refine ⟨hsound, hroutes, h.good, h.accepts, ?_, ?_, ?_,
    fun {domain'} {record} hload => .inl ?_⟩
  · apply h.listeners.of_found hlater
    intro k l hne hl
    have hold := (hfind k).symm.trans hl
    rw [if_neg fun heq => hne (congrArg some heq)] at hold
    exact .inr ⟨Option.some_ne_none k, hold⟩
  · exact ⟨target, 0, (hfind _).trans (if_pos rfl)⟩
  · refine ⟨Nat.lt_succ_self _, fun {m} hm => ?_⟩
    have hself := (OrderedMap.find?_insert _ _ _ _).symm.trans hm
    rw [if_pos rfl] at hself
    cases hself
    rfl
  · obtain ⟨k, p, p', _, hstarted, hpart⟩ := h.served (Option.some_ne_none _) hload
    obtain ⟨m, hm, hmen, _⟩ := Fabric.part?_eq_some_iff.1 hpart
    have hne : k ≠ s.fabric.nextHandle := by
      rintro rfl
      exact s.fabric.not_issued_nextHandle (h.sound.fabric.member hm)
    have hen : (s.fabric.join domain profile true).1.isEnabled k = true :=
      Fabric.isEnabled_join (Fabric.isEnabled_iff.2 ⟨m, hm, hmen⟩) _ _ _
    exact ⟨k, p, p', fun heq => hne (Option.some.inj heq), hgrows.subset hstarted,
      hlater.part?_eq h.sound.fabric hpart hen⟩

/-- Once the recovery participant is gone, the one record that may not be vouched for is that of
its domain, if it has matched anybody. -/
theorem Scouting.delete (h : s.Scouting store good kept domain scout)
    (hdrains : (s.delete scout).1.Drains s') (hheeds : s'.Heeds kept) :
    s'.VouchedBut store good kept (if 0 < s'.matchedBy scout then some domain else none) := by
  have hstep : Step s (s.delete scout).1 := .delete s scout
  have hlater := hstep.fabric.isLater
  have hissued := hlater.issued h.belongs.issued
  have hgone := isEnabled_delete h.accepts scout
  have hothers : s.Keeps (· ≠ scout) (s.delete scout).1 := keeps_delete (by simp)
  have hmatched : s'.matchedBy scout = s.matchedBy scout := by
    have hfind := hdrains.paces.find?_listeners hissued hgone
    rw [listeners_delete] at hfind
    rw [matchedBy, hfind, matchedBy]
  rw [hmatched]
  suffices hleft : (s.delete scout).1.VouchedBut store good kept
      (if 0 < s.matchedBy scout then some domain else none) from hleft.drains hdrains hheeds
  refine ⟨hstep.sound h.sound, (Move.step hstep).routes h.sound h.routes,
    hstep.keeps.1.symm ▸ h.good, hothers.accepts h.accepts, ?_,
    fun {domain'} {record} hne hload => ?_⟩
  · apply h.listeners.of_found hlater
    intro k l _ hl
    by_cases hk : k = scout
    · rw [hk]
      exact .inl (.inl ⟨hissued, hgone⟩)
    · rw [listeners_delete] at hl
      exact .inr ⟨fun heq => hk (Option.some.inj heq), hl⟩
  · rw [hstep.keeps.1] at hload
    rcases h.served hload with hserved | ⟨rfl, hpositive⟩
    · apply ServedBut.weaken
      apply hserved.of_kept h.sound (.single (.step hstep))
      intro k p p' hother _ hpart
      exact hothers.isEnabled (fun heq => hother (congrArg some heq))
        (Fabric.isEnabled_of_part? hpart)
    · rw [if_pos hpositive] at hne
      exact absurd rfl hne

end Scouting

end Site

end Rendezvous
