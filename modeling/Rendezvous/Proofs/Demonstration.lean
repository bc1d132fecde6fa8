import Rendezvous.CommandLine.Run
import Rendezvous.Proofs.EntityIds
import Rendezvous.Proofs.Launching
import Rendezvous.Proofs.Saving
import Rendezvous.Proofs.Sparing
import Rendezvous.Proofs.StoreRefinement

/-!
# How a demonstration ends

A demonstration gives its context up whatever happens after the start of its server, and a
context that is given up deletes the server and clears its record. Main statement: in a folder
that takes the files of a domain, a demonstration on that domain starts and records its server,
fails exactly if the port of the talker is too high for a port, and leaves neither a record nor
the draft of one, and every other file as it was.
-/

namespace Rendezvous

/-! ## A server that nobody takes down -/

namespace Site

/-- Whether a participant takes part and can be deleted, and no listener asks for anything to be
deleted, so that it stays there while deliveries are made. -/
structure Hosts (s : Site) (server : Handle) : Prop where
  quiet : ∀ k l, s.listeners.find? k = some l → l.IsQuiet
  accepts : s.fabric.refuseDeletes = false
  issued : s.fabric.Issued server
  enabled : s.fabric.isEnabled server = true

namespace Hosts

variable {s s' : Site} {server : Handle}

theorem of_keeps (h : s.Hosts server) (hkeeps : s.Keeps (· = server) s')
    (hlisteners : s'.listeners = s.listeners) : s'.Hosts server where
  quiet := by
    rw [hlisteners]
    exact h.quiet
  accepts := hkeeps.accepts h.accepts
  issued := hkeeps.isLater.issued h.issued
  enabled := hkeeps.isEnabled rfl h.enabled

theorem of_same (h : s.Hosts server) (hfabric : s'.fabric = s.fabric)
    (hlisteners : s'.listeners = s.listeners) : s'.Hosts server :=
  h.of_keeps ((Keeps.refl s).of_same hfabric hlisteners) hlisteners

theorem join (h : s.Hosts server) (domain : UInt32) (profile : Profile) :
    (s.join domain profile).1.Hosts server ∧ (s.join domain profile).2 ≠ server := by
  refine ⟨h.of_keeps ((keeps_join s domain profile false).trans (keeps_note _ _)) rfl, ?_⟩
  intro hsame
  have hissued := h.issued
  rw [← hsame] at hissued
  exact s.fabric.not_issued_nextHandle hissued

/-- Who joins takes part next to the one that is there. -/
theorem join_new (h : s.Hosts server) (domain : UInt32) (profile : Profile) :
    (s.join domain profile).1.Hosts (s.join domain profile).2 where
  quiet := h.quiet
  accepts := h.accepts
  issued := (Fabric.issued_join _ _ _).2 (.inl rfl)
  enabled := isEnabled_join_nextHandle _ _ _ _

theorem addEntity (h : s.Hosts server) (owner : Handle) (kind : EntityKind)
    (topicName typeName : String) (locators : RemoteLocators) (copies : Nat) :
    (s.perform (.addEntity owner kind topicName typeName locators copies)).1.Hosts server :=
  h.of_keeps (keeps_perform (.addEntity owner kind topicName typeName locators copies) s)
    (listeners_addEntities _ _ _ _ _ _ _ _)

theorem delete (h : s.Hosts server) {k : Handle} (hk : k ≠ server) :
    (s.delete k).1.Hosts server :=
  h.of_keeps (keeps_delete hk) (listeners_delete s k)

theorem heard (h : s.Hosts server) {k : Handle} (hheard : s.Heard k s') : s'.Hosts server := by
  refine ⟨fun k' l hl => ?_, ?_, ?_, ?_⟩
  · by_cases hk : k' = k
    · obtain ⟨l', hl', hquiet⟩ := hheard.own
      rw [hk, hl'] at hl
      cases hl
      exact hquiet
    · rw [hheard.other hk] at hl
      exact h.quiet k' l hl
  · rw [hheard.fabric]
    exact h.accepts
  · rw [hheard.fabric]
    exact h.issued
  · rw [hheard.fabric]
    exact h.enabled

theorem step (h : s.Hosts server) (hstep : s.step? = some s') : s'.Hosts server := by
  obtain ⟨d, fabric, hn, rfl⟩ := exists_deliver_of_step? hstep
  have htaken : { s with fabric }.Hosts server := by
    have hrest := (Fabric.next?_eq_some hn).2
    refine ⟨h.quiet, ?_, (Fabric.Step.take hn).isLater.issued h.issued,
      (Fabric.isEnabled_of_next? hn server).trans h.enabled⟩
    rw [hrest]
    exact h.accepts
  rcases deliver_eq { s with fabric } d with hsame | ⟨l, hl, hmakes⟩
  · rw [hsame]
    exact htaken
  · have hnoted : ({ s with fabric }.note (.delivered d l.label?)).Hosts server :=
      htaken.of_same rfl rfl
    rw [hmakes]
    exact hnoted.heard (heard_hear (htaken.quiet _ l hl) _ d.target d.notification)

theorem drains (h : s.Hosts server) (hdrains : s.Drains s') : s'.Hosts server := by
  induction hdrains with
  | refl => exact h
  | head hstep _ ih => exact ih (h.step hstep)

theorem saveRecord (h : s.Hosts server) (store : Store) (record : ServerRecord) :
    (s.saveRecord store record).Hosts server := by
  unfold Site.saveRecord
  split <;> exact h.of_same rfl rfl

/-- The deletion of the participant itself is not refused. -/
theorem delete_self (h : s.Hosts server) : s.delete server = ((s.delete server).1, .ok ()) := by
  obtain ⟨m, hm, _⟩ := Fabric.isEnabled_iff.1 h.enabled
  simp only [Site.delete, Fabric.delete_of_find? h.accepts hm]

end Hosts

theorem hosts_create {s : Site} (hquiet : ∀ k l, s.listeners.find? k = some l → l.IsQuiet)
    (haccepts : s.fabric.refuseDeletes = false) (hf : s.fabric.failNextCreate = false)
    (domain : UInt32) (profile : Profile) {l : Listener} (hl : l.IsQuiet) :
    (s.create domain profile l).1.Hosts s.fabric.nextHandle := by
  rw [create_of_accepted hf]
  refine ⟨fun k l' hl' => ?_, haccepts, (Fabric.issued_join _ _ _).2 (.inl rfl),
    isEnabled_join_nextHandle _ _ _ _⟩
  have hfound : (s.listeners.insert s.fabric.nextHandle l).find? k = some l' := hl'
  rw [OrderedMap.find?_insert] at hfound
  split at hfound
  · cases hfound
    exact hl
  · exact hquiet k l' hfound

theorem storage_saveRecord (s : Site) (store : Store) (record : ServerRecord) :
    (s.saveRecord store record).storage = (store.save s.storage record).1 := by
  unfold saveRecord
  split
  · rename_i hsave
    rw [hsave]
  · rename_i hsave
    rw [hsave]
    rfl

theorem storage_clearRecord (s : Site) (store : Store) (domain : UInt32) :
    (s.clearRecord store domain).storage = (store.clear s.storage domain).1 := by
  unfold clearRecord
  split
  · rename_i hclear
    rw [hclear]
  · rename_i hclear
    rw [hclear]
    rfl

end Site

/-! ## Contexts that are given up -/

namespace Context

open Site

variable {c : Context} {t : Timing} {s : Site} {domain : UInt32} {server : Handle}

/-- The first start of a context, where nobody is in the way. -/
theorem start_of_idle (hserver : c.server = none)
    (hquiet : ∀ k l, s.listeners.find? k = some l → l.IsQuiet)
    (haccepts : s.fabric.refuseDeletes = false) (hf : s.fabric.failNextCreate = false)
    (t : Timing) (domain : UInt32) {registry : Registry} (hregistry : registry.IsQuiet) :
    ∃ started, c.start t s domain registry =
        ({ c with server := some ⟨domain, s.fabric.nextHandle⟩ }, started,
          .ok s.fabric.nextHandle) ∧
      started.Hosts s.fabric.nextHandle ∧
      started.storage = (c.store.save s.storage
        (.started s.processes domain c.config.serverPrefix)).1 := by
  have hheld : c.discardHeld t s = s := by
    simp only [discardHeld, hserver]
  have hready : c.readied t s domain registry =
      s.note (.noticed (.serverStarting domain registry)) := by
    rw [readied, hheld]
  have hlaunched : (c.launched t s domain registry).Hosts s.fabric.nextHandle := by
    rw [launched, hready]
    exact hosts_create (s := s.note _) hquiet haccepts hf domain _ hregistry
  have hsame : s.SameRecords (t.pause .created (c.launched t s domain registry)) := by
    have hlaunch := c.sameRecords_launched t s domain registry
    rw [hheld] at hlaunch
    exact hlaunch.trans (t.drains .created _).sameRecords
  have haccepted : (c.readied t s domain registry).fabric.failNextCreate = false := by
    rw [hready]
    exact hf
  have hstart := start_of_accepted haccepted
  rw [hready] at hstart
  have htold : ((t.pause .created (c.launched t s domain registry)).note (.noticed
      (.serverStarted c.config.serverPrefix domain s.fabric.nextHandle))).Hosts
        s.fabric.nextHandle :=
    (hlaunched.drains (t.drains .created _)).of_same rfl rfl
  refine ⟨_, hstart, htold.saveRecord _ _, ?_⟩
  rw [storage_saveRecord, hsame.processes, note, hsame.storage]

theorem stop_of_hosts (hserver : c.server = some ⟨domain, server⟩) (h : s.Hosts server)
    (t : Timing) :
    ∃ stopped, c.stop t s domain = ({ c with server := none }, stopped, .ok .stopped) ∧
      stopped.storage = (c.store.clear s.storage domain).1 := by
  have hserved : c.serverOn? domain = some ⟨domain, server⟩ := by
    simp [serverOn?, hserver]
  have hsame := (sameRecords_delete s server).trans (t.drains .deleted _).sameRecords
  refine ⟨((t.pause .deleted (s.delete server).1).note
    (.noticed (.serverStopped domain))).clearRecord c.store domain, ?_, ?_⟩
  · rw [stop, hserved]
    simp only
    rw [h.delete_self]
  · rw [storage_clearRecord, note, hsame.storage]

theorem drop_of_hosts (hserver : c.server = some ⟨domain, server⟩) (h : s.Hosts server)
    (t : Timing) : (c.drop t s).storage = (c.store.clear s.storage domain).1 := by
  have hsame := (sameRecords_delete s server).trans (t.drains .deleted _).sameRecords
  rw [drop, hserver]
  simp only
  rw [h.delete_self]
  simp only
  rw [storage_clearRecord, note, hsame.storage]

end Context

/-! ## Files that are written and cleared -/

namespace Store

open Files

/-- Whether a folder is there once it is made, and neither a record of a domain nor the draft of
one is kept out of it by the path to it or by a folder of that name. -/
structure Receives (folder : Path) (p : Place) (domain : UInt32) (files t : Tree) : Prop where
  made : files.makeFolders folder = (t, .ok ())
  leads : t.Leads folder p
  record : t.Takes folder p (recordName domain)
  draft : t.Takes folder p (draftName domain)

theorem Vacant.receives {folder : Path} {files : Tree} (h : Vacant folder files)
    (hfits : Fits folder) : ∃ p t, ∀ domain, Receives folder p domain files t := by
  have hshort := hfits.short
  have htakes {t : Tree} {p : Place} (hmade : files.makeFolders folder = (t, .ok ()))
      (hlead : t.Leads folder p) (hempty : ∀ name, t.at? (p.child name) = none)
      (domain : UInt32) : Receives folder p domain files t := by
    obtain ⟨hdraft, hrecord⟩ := (kept_of_empty hlead hempty).takes hfits domain
    exact ⟨hmade, hlead, hrecord, hdraft⟩
  cases h with
  | empty leads nothing =>
      have hmade := Tree.makeFolders_of_leads leads hfits.noZero (by omega)
      exact ⟨_, files, htakes hmade leads nothing⟩
  | missing _ made leads nothing => exact ⟨_, _, htakes made leads nothing⟩

namespace Receives

variable {folder : Path} {p : Place} {record : ServerRecord} {s : Storage} {t : Tree}

theorem save_eq (h : Receives folder p record.domain s.files t) :
    ((Store.folder folder).save s record).1 = { s with files := written t p record } := by
  rcases saveFile_of_made h.made h.leads record with ⟨hnot, _⟩ | ⟨_, hnot, _⟩ | ⟨_, _, hsaved⟩
  · exact absurd h.draft hnot
  · exact absurd h.record hnot
  · simp only [save, hsaved]

theorem leads_written (h : Receives folder p record.domain s.files t) :
    (written t p record).Leads folder p :=
  h.leads.keeps (keepsFolders_written h.record.2 h.draft.2)

theorem load_written (h : Receives folder p record.domain s.files t) :
    (Store.folder folder).load { s with files := written t p record } record.domain =
      .ok (some record) := by
  have hown := at?_written t p record (p.child (recordName record.domain))
  rw [if_pos rfl] at hown
  exact loadFile_of_record h.record.1 h.leads_written hown (fromUTF8?_toUTF8 _)
    record.ofString_toJson

theorem clear_eq (h : Receives folder p record.domain s.files t) :
    ((Store.folder folder).clear { s with files := written t p record } record.domain).1 =
      { s with files := (written t p record).clear (p.child (recordName record.domain)) } := by
  have hremove := Tree.removeFile_join h.leads_written h.record.1
  rw [at?_written, if_pos rfl] at hremove
  have hgone : (written t p record).removeFile (recordPath folder record.domain) =
      .ok ((written t p record).clear (p.child (recordName record.domain))) := hremove
  simp only [clear, clearFile, hgone]

end Receives

/-- Neither of the two files is left when a record is cleared that was written. -/
theorem at?_clear_written (t : Tree) (p : Place) (record : ServerRecord) (q : Place) :
    ((written t p record).clear (p.child (recordName record.domain))).at? q =
      if q = p.child (recordName record.domain) ∨ q = p.child (draftName record.domain) then none
      else t.at? q := by
  rw [Tree.at?_clear (p.isStart_child _), at?_written]
  by_cases hrecord : q = p.child (recordName record.domain)
  · rw [if_pos hrecord, if_pos (.inl hrecord)]
  · rw [if_neg hrecord, if_neg hrecord]
    by_cases hdraft : q = p.child (draftName record.domain)
    · rw [if_pos hdraft, if_pos (.inr hdraft)]
    · rw [if_neg hdraft, if_neg (not_or.2 ⟨hrecord, hdraft⟩)]

end Store

/-! ## The course of a demonstration -/

namespace CommandLine

open Files Site

theorem isQuiet_loggingRegistry : loggingRegistry.IsQuiet := by
  intro category b hb
  have hbound : loggingRegistry.binding category = some ⟨.native "demo" .yields, "demo"⟩ := by
    cases category <;> rfl
  rw [hbound] at hb
  cases hb
  exact nofun

variable {s : Site} {server : Handle}

theorem fst_announce (s : Site) (owner : Handle) (kind : EntityKind) (locators : List Locator) :
    (announce s owner kind locators).1 =
      (s.perform (.addEntity owner kind demoTopic demoType ⟨locators, []⟩ 1)).1 := by
  unfold announce
  split <;> rename_i heq <;> rw [heq]

/-- Whoever takes part can announce what it has. -/
theorem announce_of_hosts {owner : Handle} (h : s.Hosts owner) (kind : EntityKind)
    (locators : List Locator) :
    announce s owner kind locators = ((announce s owner kind locators).1, .ok ()) := by
  obtain ⟨m, hm, _⟩ := Fabric.isEnabled_iff.1 h.enabled
  obtain ⟨f', hadd, _⟩ := Fabric.addEntity_of_find? hm kind demoTopic demoType ⟨locators, []⟩
  simp only [announce, perform, addEntities, hadd]

theorem hosts_announce (h : s.Hosts server) (owner : Handle) (kind : EntityKind)
    (locators : List Locator) : (announce s owner kind locators).1.Hosts server := by
  rw [fst_announce]
  exact h.addEntity _ _ _ _ _ _

theorem steps_announce (s : Site) (owner : Handle) (kind : EntityKind) (locators : List Locator) :
    Steps s (announce s owner kind locators).1 := by
  rw [fst_announce]
  exact steps_perform _ _

/-- Nothing keeps the talker and the listener from joining and announcing what they have. -/
theorem populate_of_hosts (h : s.Hosts server) (domain : UInt32) (port : UInt16) :
    ∃ s' talker, populate s domain port = (s', .ok talker) ∧ Steps s s' ∧ s'.Hosts server ∧
      s'.Hosts talker ∧ talker ≠ server := by
  obtain ⟨hserver₁, hne⟩ :=
    h.join domain ⟨simulatedPrefix 1, some "talker", [.udp talkerAddress port]⟩
  have htalker₁ := h.join_new domain ⟨simulatedPrefix 1, some "talker", [.udp talkerAddress port]⟩
  have hstep₁ := Step.join s domain ⟨simulatedPrefix 1, some "talker", [.udp talkerAddress port]⟩
  rcases hjoin₁ : s.join domain ⟨simulatedPrefix 1, some "talker", [.udp talkerAddress port]⟩ with
    ⟨s₁, talker⟩
  rw [hjoin₁] at hserver₁ hne htalker₁ hstep₁
  obtain ⟨hserver₂, _⟩ := hserver₁.join domain ⟨simulatedPrefix 2, some "listener", [.shm 0]⟩
  obtain ⟨htalker₂, _⟩ := htalker₁.join domain ⟨simulatedPrefix 2, some "listener", [.shm 0]⟩
  have hlistener₂ := hserver₁.join_new domain ⟨simulatedPrefix 2, some "listener", [.shm 0]⟩
  have hstep₂ := Step.join s₁ domain ⟨simulatedPrefix 2, some "listener", [.shm 0]⟩
  rcases hjoin₂ : s₁.join domain ⟨simulatedPrefix 2, some "listener", [.shm 0]⟩ with ⟨s₂, listener⟩
  rw [hjoin₂] at hserver₂ htalker₂ hlistener₂ hstep₂
  let s₃ := (announce s₂ talker .writer [.udp talkerAddress port]).1
  let s₄ := (announce s₃ listener .reader [.shm 0]).1
  have hwrites : announce s₂ talker .writer [.udp talkerAddress port] = (s₃, .ok ()) :=
    announce_of_hosts htalker₂ .writer _
  have hreads : announce s₃ listener .reader [.shm 0] = (s₄, .ok ()) :=
    announce_of_hosts (hosts_announce hlistener₂ talker .writer _) .reader _
  refine ⟨s₄, talker, ?_, ?_, ?_, ?_, hne⟩
  · simp only [populate, hjoin₁, hjoin₂, hwrites, hreads]
  · exact (((Relation.ReflTransGen.single hstep₁).tail hstep₂).trans
      (steps_announce s₂ talker .writer _)).trans (steps_announce s₃ listener .reader _)
  · exact hosts_announce (hosts_announce hserver₂ talker .writer _) listener .reader _
  · exact hosts_announce (hosts_announce htalker₂ talker .writer _) listener .reader _

/-- Once its server runs, a demonstration comes to its end, and with it the server. -/
theorem demoRun_of_hosts {ctx : Context} {domain : UInt32}
    (hserver : ctx.server = some ⟨domain, server⟩) (h : s.Hosts server) (c : Console)
    (port : UInt16) :
    ∃ c' s', demoRun c ctx s domain server port = (c', { ctx with server := none }, s', .ok ()) ∧
      s'.storage = (ctx.store.clear s.storage domain).1 := by
  obtain ⟨s₁, talker, hpopulate, hsteps, hserver₁, htalker₁, hne⟩ := populate_of_hosts h domain port
  -- The talker is all that is deleted before the server is stopped.
  have htalker : s₁.drain.forget.Hosts talker := (htalker₁.drains (drains_drain _)).of_same rfl rfl
  have hdrained : s₁.drain.forget.Hosts server := (hserver₁.drains (drains_drain _)).of_same rfl rfl
  have hdeleted := hdrained.delete hne
  let s₂ := (s₁.drain.forget.delete talker).1
  have hleft : s₂.drain.forget.Hosts server :=
    (hdeleted.drains (drains_drain _)).of_same rfl rfl
  have hstorage : s₂.drain.forget.storage = s.storage := by
    have hdelete := sameRecords_delete s₁.drain.forget talker
    exact (drains_drain s₂).sameRecords.storage.trans (hdelete.storage.trans
      ((drains_drain s₁).sameRecords.storage.trans hsteps.sameRecords.storage))
  obtain ⟨stopped, hstop, hcleared⟩ := Context.stop_of_hosts hserver hleft .prompt
  rw [hstorage] at hcleared
  simp only [demoRun, report, hpopulate]
  rw [htalker.delete_self]
  simp only
  rw [hstop]
  exact ⟨_, _, rfl, hcleared⟩

def idleContext (config : Config) : Context := ⟨config, .folder config.stateDir, none⟩

/-- A demonstration starts its server, and whether it gets any further or not, what is stored in
the end is what is left when the record of the server is saved and cleared. -/
theorem demo_spec {config : Config} (hvalid : config.validate = .ok ()) (c : Console)
    (storage : Storage) (processes : ProcessTable) (domain : UInt32) :
    ∃ ctx started server c' s',
      (idleContext config).start .prompt (.new storage processes) domain loggingRegistry =
        (ctx, started, .ok server) ∧
      started.Hosts server ∧
      started.storage = ((Store.folder config.stateDir).save storage
        (.started processes domain config.serverPrefix)).1 ∧
      demo c config (.new storage processes) domain =
        (c', s', (talkerPort? domain).elim (.error .portTooHigh) fun _ => .ok ()) ∧
      s'.storage = ((Store.folder config.stateDir).clear started.storage domain).1 ∧
      (talkerPort? domain = none → s'.storage = (ctx.drop .prompt started.forget).storage) := by
  have hnew : Context.new config (.folder config.stateDir) = .ok (idleContext config) := by
    simp only [Context.new, hvalid, idleContext]
  obtain ⟨started, hstart, hhosts, hsaved⟩ := Context.start_of_idle (c := idleContext config)
    (s := .new storage processes) rfl (fun k l hl => by simp [Site.new] at hl) rfl rfl .prompt
    domain isQuiet_loggingRegistry
  generalize (Site.new storage processes).fabric.nextHandle = server at hstart hhosts
  let ctx : Context := { idleContext config with server := some ⟨domain, server⟩ }
  have hstarted : (idleContext config).start .prompt (.new storage processes) domain
      loggingRegistry = (ctx, started, .ok server) := hstart
  have hheld : ctx.server = some ⟨domain, server⟩ := rfl
  have hforgotten : started.forget.Hosts server := hhosts.of_same rfl rfl
  have hdropped := Context.drop_of_hosts hheld hforgotten .prompt
  cases hport : talkerPort? domain with
  | none =>
      -- Nobody joins and nothing stops the server, so that the drop is all that cleans up.
      have hdemo : ∃ c', demo c config (.new storage processes) domain =
          (c', (ctx.drop .prompt started.forget).forget, .error .portTooHigh) := by
        simp only [demo, demoInContext, hnew, hstarted, hport, report]
        exact ⟨_, rfl⟩
      obtain ⟨c', hdemo⟩ := hdemo
      exact ⟨ctx, started, server, c', _, hstarted, hhosts, hsaved, hdemo, hdropped, fun _ => rfl⟩
  | some port =>
      obtain ⟨c', s', hrun, hcleared⟩ := demoRun_of_hosts hheld hforgotten
        (report (banner c config domain) started).1 port
      have hdemo : ∃ c', demo c config (.new storage processes) domain =
          (c', s'.forget, .ok ()) := by
        simp only [report] at hrun
        simp only [demo, demoInContext, hnew, hstarted, hport, report, hrun]
        exact ⟨_, rfl⟩
      obtain ⟨c', hdemo⟩ := hdemo
      exact ⟨ctx, started, server, c', _, hstarted, hhosts, hsaved, hdemo, hcleared,
        fun hnone => absurd hnone (Option.some_ne_none port)⟩

/-! ## Its outcome -/

/-- Whether the talker can have the port that is computed for it. -/
def TalkerHasPort (domain : UInt32) : Prop :=
  (DomainPorts.userUnicastWord domain 1).toNat < UInt16.size

instance : DecidablePred TalkerHasPort := fun _ => inferInstanceAs (Decidable (_ < _))

theorem talkerPort?_eq_none_iff {domain : UInt32}
    (h : (DomainPorts.ofDomain domain 1).userUnicast < UInt32.size) :
    talkerPort? domain = none ↔ ¬ TalkerHasPort domain := by
  rw [TalkerHasPort, DomainPorts.toNat_userUnicastWord h, talkerPort?]
  split <;> simp_all

/-- Whether a demonstration has come as far as this site: its server takes part and is on
record. -/
structure Launches (env : Environment) (config : Config) (domain : UInt32) (ctx : Context)
    (s : Site) (server : Handle) : Prop where
  started : (idleContext config).start .prompt (.new ⟨.empty, env.files⟩ env.processes) domain
    loggingRegistry = (ctx, s, .ok server)
  enabled : s.fabric.isEnabled server = true
  recorded : (Store.folder config.stateDir).load s.storage domain =
    .ok (some (.started env.processes domain config.serverPrefix))

/-- Whether an outcome is that of a demonstration that has cleaned up. It was launched, and if it
failed, then because the talker has no port, and it is by giving the context up that it cleaned
up. Of the two files of its domain none is left, and of the others none has changed. -/
structure EndsTidily (env : Environment) (config : Config) (domain : UInt32) (p : Place)
    (o : Outcome) : Prop where
  exitCode : o.exitCode = if TalkerHasPort domain then 0 else 1
  errors : o.errors =
    if TalkerHasPort domain then "" else "Error: TryFromIntError(PosOverflow)\n"
  launched : ∃ ctx s server, Launches env config domain ctx s server ∧
    (o.exitCode = 1 → o.files = (ctx.drop .prompt s.forget).storage.files)
  noRecord : o.files.at? (p.child (Store.recordName domain)) = none
  noDraft : o.files.at? (p.child (Store.draftName domain)) = none
  others : ∀ q, q ≠ p.child (Store.recordName domain) → q ≠ p.child (Store.draftName domain) →
    o.files.at? q = env.files.at? q ∨ env.files.at? q = none ∧ o.files.at? q = some .folder
  spared : env.files.Leads config.stateDir p →
    ∀ q, q ≠ p.child (Store.recordName domain) → q ≠ p.child (Store.draftName domain) →
      o.files.at? q = env.files.at? q

section Outcome

variable {env : Environment} {config : Config} {domain : UInt32} {p : Place} {t : Tree}

theorem demonstrate_of_demo {c c' : Console} {s : Site}
    (hport : (DomainPorts.ofDomain domain 1).userUnicast < UInt32.size)
    (hdemo : demo c config (.new ⟨.empty, env.files⟩ env.processes) domain =
      (c', s, (talkerPort? domain).elim (.error .portTooHigh) fun _ => .ok ())) :
    demonstrate env c config domain =
      if TalkerHasPort domain then .ending c' s.storage.files true
      else .failure c' s.storage.files "TryFromIntError(PosOverflow)" := by
  have hnone := talkerPort?_eq_none_iff hport
  unfold demonstrate
  rw [hdemo]
  cases htalker : talkerPort? domain with
  | none =>
      rw [if_neg (hnone.1 htalker)]
      rfl
  | some port =>
      rw [if_pos (Decidable.byContradiction fun hhigh => by simp [hnone.2 hhigh] at htalker)]
      rfl

theorem demonstrate_endsTidily (hvalid : config.validate = .ok ())
    (hport : (DomainPorts.ofDomain domain 1).userUnicast < UInt32.size)
    (hfolder : Store.Receives config.stateDir p domain env.files t) (c : Console) :
    EndsTidily env config domain p (demonstrate env c config domain) := by
  obtain ⟨ctx, started, server, c', s', hstart, hhosts, hsaved, hdemo, hcleared, hdropped⟩ :=
    demo_spec hvalid c ⟨.empty, env.files⟩ env.processes domain
  have houtcome := demonstrate_of_demo hport hdemo
  have hreceives : Store.Receives config.stateDir p
    (ServerRecord.started env.processes domain config.serverPrefix).domain
    (Storage.mk .empty env.files).files t := hfolder
  have hwritten := hsaved.trans hreceives.save_eq
  have hlaunched : Launches env config domain ctx started server :=
    ⟨hstart, hhosts.enabled, hwritten ▸ hreceives.load_written⟩
  have hcleaned := hcleared.trans (hwritten ▸ hreceives.clear_eq)
  have hfiles : (demonstrate env c config domain).files = s'.storage.files := by
    rw [houtcome]
    split <;> rfl
  have hplaces : ∀ q, (demonstrate env c config domain).files.at? q =
      if q = p.child (Store.recordName domain) ∨ q = p.child (Store.draftName domain) then none
      else t.at? q := by
    intro q
    rw [hfiles, hcleaned]
    exact Store.at?_clear_written t p _ q
  have hadds : env.files.AddsFolders t := by
    have hmade := env.files.addsFolders_makeFolders config.stateDir
    rwa [hfolder.made] at hmade
  refine ⟨?_, ?_, ⟨ctx, started, server, hlaunched, fun hfailed => ?_⟩, ?_, ?_,
    fun q hrecord hdraft => ?_, fun hlead q hrecord hdraft => ?_⟩
  · rw [houtcome]
    split <;> rfl
  · rw [houtcome]
    split <;> rfl
  · rw [hfiles, hdropped]
    refine (talkerPort?_eq_none_iff hport).2 fun hlow => ?_
    rw [houtcome, if_pos hlow] at hfailed
    cases hfailed
  · rw [hplaces, if_pos (.inl rfl)]
  · rw [hplaces, if_pos (.inr rfl)]
  · rw [hplaces, if_neg (not_or.2 ⟨hrecord, hdraft⟩)]
    exact hadds q
  · have hself := Tree.makeFolders_eq_self hlead
    rw [hfolder.made] at hself
    rw [hplaces, if_neg (not_or.2 ⟨hrecord, hdraft⟩)]
    exact congrArg (·.at? q) hself

end Outcome

/-- A demonstration cleans up after itself whether it succeeds or fails, in whatever way it was
asked for. -/
theorem demo_cleans_up {env : Environment} {config : Config} {domain : UInt32} {p : Place}
    {t : Tree} (hvalid : config.validate = .ok ())
    (hport : (DomainPorts.ofDomain domain 1).userUnicast < UInt32.size)
    (hfolder : Store.Receives config.stateDir p domain env.files t) :
    (∀ c, EndsTidily env config domain p (demonstrate env c config domain)) ∧
      ∀ arguments i pause, Request.of arguments = .run i → i.task = .demo domain pause →
        (configure env i (.new (.ofWord i.logLevel))).2 = .ok config →
          EndsTidily env config domain p (run env arguments) := by
  have htidy := demonstrate_endsTidily hvalid hport hfolder
  refine ⟨htidy, fun arguments i pause hrequest htask hconfig => ?_⟩
  have hrun : run env arguments =
      demonstrate env (configure env i (.new (.ofWord i.logLevel))).1 config domain := by
    simp only [run, hrequest, Invocation.run]
    rcases hconfigure : configure env i (.new (.ofWord i.logLevel)) with ⟨c, result⟩
    rw [hconfigure] at hconfig
    simp only at hconfig
    subst hconfig
    simp only [htask]
  rw [hrun]
  exact htidy _

def bareEnvironment : Environment := ⟨.empty, ⟨1, [], 0⟩, Store.nestedFolder⟩

/-- A working folder with a record and a draft that make no sense, and a record of another
domain. -/
def litteredFiles : Tree :=
  ((Tree.empty.set (Place.working.child (Store.recordName 1)) (.file .empty)).set
    (Place.working.child (Store.draftName 1)) (.file .empty)).set
      (Place.working.child (Store.recordName 2))
        (.file (Store.fileText (Store.someRecord 2)).toUTF8)

def litteredEnvironment : Environment := ⟨litteredFiles, ⟨1, [], 0⟩, Store.workingFolder⟩

theorem receives_litteredFiles (domain : UInt32) :
    Store.Receives Store.workingFolder .working domain litteredFiles litteredFiles := by
  have hfits : Store.Fits Store.workingFolder := ⟨by decide, by decide⟩
  have hfile : ∀ name, litteredFiles.at? (Place.working.child name) ≠ some .folder := by
    intro name
    have hempty : Tree.empty.at? (Place.working.child name) = none := rfl
    rw [litteredFiles, Tree.at?_set (Place.isStart_child _ _),
      Tree.at?_set (Place.isStart_child _ _), Tree.at?_set (Place.isStart_child _ _), hempty]
    split_ifs <;> simp
  have hlead : litteredFiles.Leads Store.workingFolder .working := rfl
  exact ⟨Tree.makeFolders_of_leads hlead (by decide) (by decide), hlead,
    ⟨hfits.record domain, hfile _⟩, ⟨hfits.draft domain, hfile _⟩⟩

/-- Domain 1 has a port for the talker, and only its own litter is cleared away; domain 300 has
none. -/
theorem demo_cleans_up_litter :
    (EndsTidily litteredEnvironment (.default Store.workingFolder) 1 .working
        (run litteredEnvironment ["demo", "--domain", "1"]) ∧
      (run litteredEnvironment ["demo", "--domain", "1"]).exitCode = 0 ∧
      (run litteredEnvironment ["demo", "--domain", "1"]).files.at?
          (Place.working.child (Store.recordName 2)) =
        some (.file (Store.fileText (Store.someRecord 2)).toUTF8)) ∧
    ∃ p, EndsTidily bareEnvironment (.default Store.nestedFolder) 300 p
        (run bareEnvironment ["demo", "--domain", "300"]) ∧
      (run bareEnvironment ["demo", "--domain", "300"]).exitCode = 1 := by
  have hvalid : (Config.default Store.workingFolder).validate = .ok () := rfl
  have hvalid' : (Config.default Store.nestedFolder).validate = .ok () := rfl
  have hfits : Store.Fits Store.nestedFolder := ⟨by decide, by decide⟩
  obtain ⟨p, t, hreceives⟩ := Store.vacant_nestedFolder.receives hfits
  have hlittered : Store.Receives (Config.default Store.workingFolder).stateDir .working 1
      litteredEnvironment.files litteredFiles := receives_litteredFiles 1
  have hbare : Store.Receives (Config.default Store.nestedFolder).stateDir p 300
      bareEnvironment.files t := hreceives 300
  obtain ⟨-, hlow⟩ := demo_cleans_up hvalid (by decide) hlittered
  obtain ⟨-, hhigh⟩ := demo_cleans_up hvalid' (by decide) hbare
  have hdone := hlow ["demo", "--domain", "1"] ⟨none, none, "info", .demo 1 200⟩ 200 (by cbv)
    rfl rfl
  have hfailed := hhigh ["demo", "--domain", "300"] ⟨none, none, "info", .demo 300 200⟩ 200
    (by cbv) rfl rfl
  refine ⟨⟨hdone, hdone.exitCode, ?_⟩, p, hfailed, hfailed.exitCode⟩
  have hother : Place.working.child (Store.recordName 2) ≠
      Place.working.child (Store.recordName 1) :=
    fun heq => absurd (Store.recordName_inj (Place.child_inj.1 heq).2) (by decide)
  rw [hdone.spared rfl _ hother (Store.child_record_ne_draft _ _ _)]
  exact (Tree.at?_set (Place.isStart_child _ _) _ _ _).trans (if_pos rfl)

end CommandLine

end Rendezvous
