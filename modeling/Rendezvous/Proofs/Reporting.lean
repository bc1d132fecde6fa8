import Rendezvous.Proofs.Vouching

/-!
# Servers that are reported

Contexts may start, stop and give up servers in any order, and recover domains from each
other; whatever they do to a server they do to its record too. Main statement: as long as
all else spares the servers, a context reports one for a domain only if a server that was
started for the domain takes part in it.
-/

namespace Rendezvous

namespace Context

open Site

/-- Whether the server that a context holds, if any, is in no domain but its own. -/
def HoldsOwn (c : Context) (s : Site) : Prop :=
  ∀ running, c.server = some running → s.fabric.BelongsTo running.handle running.domain

section Site

variable {good : Storage → Prop} {kept : Handle → Prop} {c : Context} {t : Timing}
  {s s' s'' : Site} {domain : UInt32}

/-! ## Servers that go -/

theorem heeds_of_clearRecord {store : Store} (h : (s.clearRecord store domain).Heeds kept) :
    s.Heeds kept := h.earlier (paces_clearRecord s store domain).moves.journal_grows

theorem heeds_of_note {x : Sighting} (h : (s.note x).Heeds kept) : s.Heeds kept := by
  apply h.earlier
  rw [journal_note]
  exact List.prefix_append _ _

/-- Once a server is deleted its record goes too. -/
theorem vouched_of_deleted {running : Running} (hstore : c.store.Reliable good)
    (h : s.VouchedBut c.store good kept none)
    (hk : s.fabric.BelongsTo running.handle running.domain)
    (hdelete : s.delete running.handle = (s'', .ok ())) (hdrains : s''.Drains s')
    {notice : Notice} (hnotice : notice.IsOfServer)
    (hheeds : ((s'.note (.noticed notice)).clearRecord c.store running.domain).Heeds kept) :
    ((s'.note (.noticed notice)).clearRecord c.store running.domain).VouchedBut c.store good kept
      none := by
  have hdeleted := heeds_of_note (heeds_of_clearRecord hheeds)
  have hleft := (h.weaken (some running.domain)).delete hk
  rw [hdelete] at hleft
  exact ((hleft.drains hdrains hdeleted).note hnotice hdeleted).clearRecord hstore

theorem vouched_drop (hstore : c.store.Reliable good) (h : s.VouchedBut c.store good kept none)
    (hheld : c.HoldsOwn s) (hheeds : (c.drop t s).Heeds kept) :
    (c.drop t s).VouchedBut c.store good kept none := by
  cases hr : c.server with
  | none =>
      simp only [drop, hr]
      exact h
  | some running =>
      rcases hdelete : s.delete running.handle with ⟨s', result⟩
      simp only [drop, hr, hdelete] at hheeds ⊢
      cases result with
      | ok _ =>
          exact vouched_of_deleted hstore h (hheld running hr) hdelete (t.drains .deleted s')
            (.dropped _ _) hheeds
      | error e =>
          rw [Site.delete_eq_error hdelete]
          exact h

theorem vouched_discardHeld (hstore : c.store.Reliable good)
    (h : s.VouchedBut c.store good kept none) (hheld : c.HoldsOwn s)
    (hheeds : (c.discardHeld t s).Heeds kept) :
    (c.discardHeld t s).VouchedBut c.store good kept none := by
  cases hr : c.server with
  | none =>
      simp only [discardHeld, hr]
      exact h
  | some previous =>
      simp only [discardHeld, hr, discard] at hheeds ⊢
      have hk := hheld previous hr
      have hdeleted := heeds_of_clearRecord hheeds
      have hclosed := hdeleted.earlier
        (paces_delete t .deleted _ previous.handle).moves.journal_grows
      have htold := hclosed.earlier (paces_close t .closed _ previous.handle).moves.journal_grows
      have hleft := (h.weaken (some previous.domain)).note
        (.replaced previous.handle previous.domain) (heeds_of_note htold)
      have hlater := (paces_close t .closed
        (s.note (.noticed (.serverReplaced previous.handle previous.domain)))
          previous.handle).moves.isLater
      have hstays := hk.of_isLater hlater
      have hout := (hleft.close hk).drains (t.drains .closed _) hclosed
      exact ((hout.delete hstays).drains (t.drains .deleted _) hdeleted).clearRecord hstore

/-! ## Servers that are started -/

/-- The server that a start has created takes part when the start goes on. -/
theorem served_launched {registry : Registry}
    (haccepted : (c.readied t s domain registry).fabric.failNextCreate = false)
    (h : (c.launched t s domain registry).VouchedBut c.store good kept none)
    (hheeds : ((t.pause .created (c.launched t s domain registry)).note (.noticed (.serverStarted
      c.config.serverPrefix domain (c.readied t s domain registry).fabric.nextHandle))).Heeds kept) :
    ((t.pause .created (c.launched t s domain registry)).note (.noticed (.serverStarted
      c.config.serverPrefix domain
        (c.readied t s domain registry).fabric.nextHandle))).ServedBut none domain := by
  have hkept : kept (c.readied t s domain registry).fabric.nextHandle := by
    apply hheeds.started
    rw [journal_note]
    exact List.mem_append_right _ List.mem_cons_self
  have hpart : (c.launched t s domain registry).fabric.part?
      (c.readied t s domain registry).fabric.nextHandle =
        some (c.config.serverQos.profile.guidPrefix, domain) := by
    rw [launched, create_of_accepted haccepted]
    exact (Fabric.part?_join _ _ _ _ _).trans (if_pos rfl)
  have hkeeps := h.listeners.keeps_drains (t.drains .created _) (heeds_of_note hheeds).calls
  have hen := hkeeps.isEnabled hkept (Fabric.isEnabled_of_part? hpart)
  refine ⟨_, c.config.serverPrefix, _, Option.some_ne_none _, ?_,
    hkeeps.isLater.part?_eq h.sound.fabric hpart hen⟩
  rw [journal_note]
  exact List.mem_append_right _ List.mem_cons_self

theorem vouched_start (hstore : c.store.Reliable good) (h : s.VouchedBut c.store good kept none)
    (hheld : c.HoldsOwn s) (domain : UInt32) (registry : Registry)
    (hheeds : (c.start t s domain registry).2.1.Heeds kept) :
    (c.start t s domain registry).2.1.VouchedBut c.store good kept none := by
  have hcreate : Site.Step (c.readied t s domain registry) (c.launched t s domain registry) :=
    .create _ domain _ (.discovery registry _)
  have hgrows := (c.paces_start_of_launched t s domain registry).moves.journal_grows
  have hlaunched := hheeds.earlier hgrows
  have hreadied := hlaunched.earlier (Move.step hcreate).journal_grows
  have hready : (c.readied t s domain registry).VouchedBut c.store good kept none :=
    (vouched_discardHeld hstore h hheld (heeds_of_note hreadied)).note (.starting domain registry)
      (heeds_of_note hreadied)
  have hlaunch : (c.launched t s domain registry).VouchedBut c.store good kept none :=
    hready.keeps (.single (.step hcreate)) (keeps_create _ _ _ (.discovery kept _)) hcreate.keeps.1
      hreadied
  cases hf : (c.readied t s domain registry).fabric.failNextCreate with
  | true =>
      rw [start_of_refused hf]
      exact hlaunch
  | false =>
      rw [start_of_accepted hf] at hheeds ⊢
      have hstarted := hheeds.earlier (paces_saveRecord _ _ _).moves.journal_grows
      have hcreated := heeds_of_note hstarted
      have hserved := served_launched hf hlaunch hstarted
      exact ((hlaunch.drains (t.drains .created _) hcreated).note (.started _ _ _)
        hcreated).saveRecord hstore hserved

/-! ## Servers that are stopped -/

theorem vouched_settleRecord {store : Store} {matched : Nat} (hstore : store.Reliable good)
    (h : s.VouchedBut store good kept (if 0 < matched then some domain else none)) :
    (s.settleRecord store domain matched).VouchedBut store good kept none := by
  by_cases hmatched : 0 < matched
  · rw [if_pos hmatched] at h
    rw [settleRecord_of_clears (.inl hmatched)]
    exact h.clearRecord hstore
  · rw [if_neg hmatched] at h
    by_cases hstale : s.HasStaleRecord store domain
    · rw [settleRecord_of_clears (.inr hstale)]
      exact (h.weaken (some domain)).clearRecord hstore
    · rw [settleRecord_of_keeps hmatched hstale]
      exact h

theorem vouched_recover (hstore : c.store.Reliable good)
    (h : s.VouchedBut c.store good kept none) (domain : UInt32)
    (hheeds : (c.recover t s domain).1.Heeds kept) :
    (c.recover t s domain).1.VouchedBut c.store good kept none := by
  cases hf : s.fabric.failNextCreate with
  | true =>
      have hrefused : (c.recover t s domain).1 =
          { s with fabric := { s.fabric with failNextCreate := false } } := by
        simp only [recover, create_of_refused hf]
      rw [hrefused] at hheeds ⊢
      have hmoves : Moves s { s with fabric := { s.fabric with failNextCreate := false } } :=
        .single (.step (.configure s false s.fabric.refuseDeletes))
      exact h.keeps hmoves (keeps_configure s false) rfl (hheeds.earlier hmoves.journal_grows)
  | false =>
      rw [recover_of_accepted hf] at hheeds ⊢
      have hrecovered : (c.recovered t s domain).Heeds kept :=
        hheeds.earlier (paces_settleRecord _ _ _ _).moves.journal_grows
      have hscouting := h.scouting_create hf domain c.config.recoveryQos.profile
        c.config.serverPrefix
      have hscouted := hrecovered.earlier (paces_delete t .deleted _ _).moves.journal_grows
      have hwaited := hscouting.drains (t.drains .waiting _) hscouted
      exact vouched_settleRecord hstore (hwaited.delete (t.drains .deleted _) hrecovered)

theorem vouched_stop (hstore : c.store.Reliable good) (h : s.VouchedBut c.store good kept none)
    (hheld : c.HoldsOwn s) (domain : UInt32) (hheeds : (c.stop t s domain).2.1.Heeds kept) :
    (c.stop t s domain).2.1.VouchedBut c.store good kept none := by
  cases hr : c.serverOn? domain with
  | none =>
      simp only [stop, hr] at hheeds ⊢
      exact vouched_recover hstore h domain hheeds
  | some running =>
      obtain ⟨hserver, hdomain⟩ := Option.filter_eq_some_iff.1 hr
      obtain rfl := beq_iff_eq.1 hdomain
      rcases hdelete : s.delete running.handle with ⟨s', result⟩
      simp only [stop, hr, hdelete] at hheeds ⊢
      cases result with
      | ok _ =>
          exact vouched_of_deleted hstore h (hheld running hserver) hdelete (t.drains .deleted s')
            (.stopped _) hheeds
      | error e =>
          rw [Site.delete_eq_error hdelete]
          exact h

theorem mem_journal_start {registry : Registry} {running : Running}
    (hr : (c.start t s domain registry).1.server = some running) :
    .noticed (.serverStarted c.config.serverPrefix running.domain running.handle) ∈
      (c.start t s domain registry).2.1.journal := by
  cases hf : (c.readied t s domain registry).fabric.failNextCreate with
  | true =>
      rw [start_of_refused hf] at hr
      cases hr
  | false =>
      rw [start_of_accepted hf] at hr ⊢
      cases hr
      apply (paces_saveRecord _ _ _).moves.journal_grows.subset
      rw [journal_note]
      exact List.mem_append_right _ List.mem_cons_self

end Site

end Context

namespace Deployment

/-- Whether an operation spares some participants, unless it concerns contexts, and brings no store
but the shared one. -/
structure IsSparing (kept : Handle → Prop) (op : Operation) : Prop where
  command : ∀ c, op = .command c → c.Spares kept
  store : ∀ config, op ≠ .install config true

inductive SparingStep (kept : Handle → Prop) : Deployment → Deployment → Prop
  | act (d : Deployment) (t : Timing) {op : Operation} (h : IsSparing kept op) :
      SparingStep kept d (d.act t op).1
  | deliver {d : Deployment} {site : Site} (h : d.site.step? = some site) :
      SparingStep kept d { d with site }

abbrev SparingRun (kept : Handle → Prop) : Deployment → Deployment → Prop :=
  Relation.ReflTransGen (SparingStep kept)

theorem SparingRun.run {kept : Handle → Prop} {d d' : Deployment} (h : SparingRun kept d d') :
    Run d d' := by
  refine Relation.ReflTransGen.mono (fun _ _ hstep => ?_) _ _ h
  cases hstep with
  | act t _ => exact .act _ t _
  | deliver h => exact .deliver h

structure IsVouched (store : Store) (good : Storage → Prop) (kept : Handle → Prop)
    (d : Deployment) : Prop where
  vouched : d.site.VouchedBut store good kept none
  store_eq : d.store = store
  shared : ∀ {c}, d.Owns c → c.store = store
  told : ∀ {c running}, d.Owns c → c.server = some running →
    ∃ p, .noticed (.serverStarted p running.domain running.handle) ∈ d.site.journal

section Vouched

variable {store : Store} {good : Storage → Prop} {kept : Handle → Prop} {d d' : Deployment}
  {t : Timing}

theorem isVouched_new {storage : Storage} {processes : ProcessTable} (hgood : good storage)
    (hempty : ∀ domain, store.load storage domain = .ok none) :
    (new (Site.new storage processes) store).IsVouched store good kept where
  vouched :=
    { sound := Site.sound_new storage processes
      routes := Site.routes_new storage processes
      good := hgood
      accepts := rfl
      listeners := by
        intro k l _ hl
        simp [new, Site.new] at hl
      served := by
        intro domain record _ hload
        have hnone := (hempty domain).symm.trans hload
        cases hnone }
  store_eq := rfl
  shared := by
    rintro c (⟨name, hc⟩ | hc)
    · simp [new] at hc
    · simp [new, HostInterface.Bridge.initial] at hc
  told := by
    rintro c running (⟨name, hc⟩ | hc)
    · simp [new] at hc
    · simp [new, HostInterface.Bridge.initial] at hc

theorem Reachable.holdsOwn (hd : d.Reachable) {c : Context} (hc : d.Owns c) :
    c.HoldsOwn d.site := by
  intro running hr
  have hm := hd.mirrored hc hr
  exact ⟨hm.issued, fun hmember => (hm.member hmember).1⟩

theorem IsVouched.vouched_act (h : d.IsVouched store good kept) (hstore : store.Reliable good)
    (hd : d.Reachable) {op : Operation} (hsparing : IsSparing kept op)
    (hheeds : (d.act t op).1.site.Heeds kept) :
    (d.act t op).1.site.VouchedBut store good kept none := by
  have heffect := effect_act d t op
  generalize (d.act t op).1.site = s at heffect hheeds ⊢
  cases heffect with
  | idle => exact h.vouched
  | @command c hop =>
      have hsteps := Site.steps_perform d.site c
      exact h.vouched.keeps hsteps.moves (Site.keeps_perform (hsparing.command c hop) d.site)
        hsteps.sameRecords.storage (hheeds.earlier hsteps.moves.journal_grows)
  | drop hc =>
      obtain rfl := h.shared hc
      exact Context.vouched_drop hstore h.vouched (hd.holdsOwn hc) hheeds
  | start hc domain registry =>
      obtain rfl := h.shared hc
      exact Context.vouched_start hstore h.vouched (hd.holdsOwn hc) domain registry hheeds
  | stop hasks =>
      obtain rfl := h.shared hasks.owns
      exact Context.vouched_stop hstore h.vouched (hd.holdsOwn hasks.owns) _ hheeds

theorem IsVouched.act (h : d.IsVouched store good kept) (hstore : store.Reliable good)
    (hd : d.Reachable) {op : Operation} (hsparing : IsSparing kept op)
    (hheeds : (d.act t op).1.site.Heeds kept) : (d.act t op).1.IsVouched store good kept where
  vouched := h.vouched_act hstore hd hsparing hheeds
  store_eq := (store_act d t op).trans h.store_eq
  shared hc := shared_act h.store_eq h.shared hsparing.store hc
  told := by
    intro c running hc hr
    cases comesOf_act hc with
    | stays hc =>
        obtain ⟨p, hstarted⟩ := h.told hc hr
        exact ⟨p, (moves_act d t op).journal_grows.subset hstarted⟩
    | stopped => cases hr
    | made => cases hr
    | started hc hsite =>
        rw [hsite]
        exact ⟨_, Context.mem_journal_start hr⟩

theorem IsVouched.deliver (h : d.IsVouched store good kept) {site : Site}
    (hstep : d.site.step? = some site) (hheeds : site.Heeds kept) :
    { d with site }.IsVouched store good kept := by
  have hsteps := Site.steps_of_step? hstep
  have hgrows := hsteps.moves.journal_grows
  refine ⟨?_, h.store_eq, h.shared, fun hc hr => ?_⟩
  · exact h.vouched.keeps hsteps.moves (h.vouched.listeners.keeps_step hstep hheeds.calls)
      hsteps.sameRecords.storage (hheeds.earlier hgrows)
  · obtain ⟨p, hstarted⟩ := h.told hc hr
    exact ⟨p, hgrows.subset hstarted⟩

theorem SparingRun.isVouched (hstore : store.Reliable good) (hd : d.Reachable)
    (h : d.IsVouched store good kept) (hrun : SparingRun kept d d') (hheeds : d'.site.Heeds kept) :
    d'.IsVouched store good kept := by
  induction hrun with
  | refl => exact h
  | @tail d₁ d₂ hbefore hstep ih =>
      have hreachable := hd.run (SparingRun.run hbefore)
      cases hstep with
      | act t hsparing =>
          have hearlier := hheeds.earlier (moves_act d₁ t _).journal_grows
          exact (ih hearlier).act hstore hreachable hsparing hheeds
      | deliver hdeliver =>
          have hearlier := hheeds.earlier (Site.steps_of_step? hdeliver).moves.journal_grows
          exact (ih hearlier).deliver hdeliver hheeds

end Vouched

/-- If a context reports a server for a domain, one that was started for the domain takes part in
it, as long as commands, scripts and callbacks have spared all servers. -/
theorem SparingRun.served_of_isRunning {store : Store} {good : Storage → Prop}
    (hstore : store.Reliable good) {storage : Storage} (hfirst : good storage)
    (hempty : ∀ domain, store.load storage domain = .ok none) {processes : ProcessTable}
    {kept : Handle → Prop} {d : Deployment}
    (hrun : SparingRun kept (new (Site.new storage processes) store) d)
    (hstarted : ∀ p domain k, .noticed (.serverStarted p domain k) ∈ d.site.journal → kept k)
    (hcalls : d.site.CallsSpare kept) {c : Context} (hc : d.Owns c) {domain : UInt32}
    (hrunning : c.isRunning d.site domain = true) :
    ∃ k p p', .noticed (.serverStarted p domain k) ∈ d.site.journal ∧
      d.site.fabric.part? k = some (p', domain) := by
  have hbefore : (new (Site.new storage processes) store).Reachable :=
    ⟨storage, processes, store, .refl⟩
  have hheeds : d.site.Heeds kept := ⟨hstarted _ _ _, hcalls⟩
  have h := SparingRun.isVouched hstore hbefore (isVouched_new hfirst hempty) hrun hheeds
  have hd := hbefore.run (SparingRun.run hrun)
  unfold Context.isRunning at hrunning
  split at hrunning
  · rename_i hheld
    obtain ⟨running, hserver, hen⟩ := (Option.any_eq_true _ _).1 hheld
    obtain ⟨hr, hdomain⟩ := Option.filter_eq_some_iff.1 hserver
    obtain rfl := beq_iff_eq.1 hdomain
    obtain ⟨p, htold⟩ := h.told hc hr
    obtain ⟨m, hm, hmen⟩ := Fabric.isEnabled_iff.1 hen
    have hmdomain := (hd.holdsOwn hc running hr).member hm
    exact ⟨_, p, _, htold, Fabric.part?_eq_some_iff.2 ⟨m, hm, hmen, rfl, hmdomain⟩⟩
  · rw [h.shared hc] at hrunning
    split at hrunning
    · rename_i record hload
      obtain ⟨k, p, p', _, htold, hpart⟩ := h.vouched.served (Option.some_ne_none _) hload
      exact ⟨k, p, p', htold, hpart⟩
    · cases hrunning

def withReported : Deployment :=
  ((((new (Site.new .empty ⟨1, [], 0⟩) .memory).act .late
    (.newContext "A" (Config.default (.ofString "state")))).1.act .late
      (.newContext "B" (Config.default (.ofString "state")))).1.act .prompt (.start "A" 1 .empty)).1

/-- The server that one context has started is reported by the other one, and is there. -/
theorem reported_is_served :
    (rival none).isRunning withReported.site 1 = true ∧
      ∃ k p p', .noticed (.serverStarted p 1 k) ∈ withReported.site.journal ∧
        withReported.site.fabric.part? k = some (p', 1) := by
  have hsparing : ∀ {op}, op ∈ [.newContext "A" (Config.default (.ofString "state")),
      .newContext "B" (Config.default (.ofString "state")), .start "A" 1 .empty] →
      IsSparing (fun _ => True) op := by
    intro op hop
    simp only [List.mem_cons, List.not_mem_nil, or_false] at hop
    rcases hop with rfl | rfl | rfl <;> exact ⟨by simp, by simp⟩
  have hrun : SparingRun (fun _ => True) (new (Site.new .empty ⟨1, [], 0⟩) .memory) withReported :=
    ((Relation.ReflTransGen.single (.act _ .late (hsparing (by simp)))).tail
      (.act _ .late (hsparing (by simp)))).tail (.act _ .prompt (hsparing (by simp)))
  have hcalls : withReported.site.victims = [] := by cbv
  have hspared : withReported.site.CallsSpare fun _ => True := by
    intro k hk
    rw [hcalls] at hk
    cases hk
  have hb : withReported.Owns (rival none) := .inl ⟨"B", by cbv⟩
  have hreported : (rival none).isRunning withReported.site 1 = true := by cbv
  exact ⟨hreported, hrun.served_of_isRunning Store.reliable_memory trivial (fun _ => rfl)
    (fun _ _ _ _ => trivial) hspared hb hreported⟩

end Deployment

end Rendezvous
