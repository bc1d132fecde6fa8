import Mathlib
import Rendezvous.Proofs.ReliableStore
import Rendezvous.Proofs.Runs

/-!
# What the records say of servers

Contexts that share a store keep one record for each domain: whoever starts a server there
writes it, and whoever ends one clears it, no matter who runs what. So a record stands for
a domain exactly if the last word on its servers was a start. Main statement: from whichever
context one asks, a server is reported for a domain where one runs exactly if the context
asked runs it itself, or the last word was a start.
-/

namespace Rendezvous

inductive Word where
  | started
  | ended
  deriving DecidableEq, Repr

def Notice.word? (domain : UInt32) : Notice → Option Word
  | .serverStarted _ d _ => if d = domain then some .started else none
  | .serverStopped d => if d = domain then some .ended else none
  | .serverReplaced _ d => if d = domain then some .ended else none
  | .serverDropped _ d => if d = domain then some .ended else none
  | _ => none

def Sighting.word? (domain : UInt32) : Sighting → Option Word
  | .noticed notice => notice.word? domain
  | _ => none

namespace Site

def lastWord? (s : Site) (domain : UInt32) : Option Word := s.seen.findSome? (·.word? domain)

theorem lastWord?_note (s : Site) (x : Sighting) (domain : UInt32) :
    (s.note x).lastWord? domain = (x.word? domain).or (s.lastWord? domain) := by
  simp only [lastWord?, note, List.findSome?_cons]
  cases x.word? domain <;> rfl

/-! ## What concerns no record -/

structure SameRecords (s s' : Site) : Prop where
  storage : s'.storage = s.storage
  processes : s'.processes = s.processes
  lastWord? : ∀ domain, s'.lastWord? domain = s.lastWord? domain

theorem SameRecords.refl (s : Site) : s.SameRecords s := ⟨rfl, rfl, fun _ => rfl⟩

theorem SameRecords.trans {a b c : Site} (h : a.SameRecords b) (h' : b.SameRecords c) :
    a.SameRecords c :=
  ⟨h'.storage.trans h.storage, h'.processes.trans h.processes,
    fun domain => (h'.lastWord? domain).trans (h.lastWord? domain)⟩

theorem word?_of_isNews {f : Fabric} {x : Sighting} (hx : x.IsNews f) (domain : UInt32) :
    x.word? domain = none := by
  cases hx with
  | @called h _ call =>
      unfold sighting
      split <;> rfl
  | remark hx => cases hx <;> rfl
  | joined => rfl
  | closed => rfl
  | deleted => rfl
  | published => rfl
  | delivered => rfl

theorem keeps_notePublished (s : Site) (before after : DiscoveryListener) :
    (s.notePublished before after).storage = s.storage ∧
      (s.notePublished before after).processes = s.processes := by
  unfold notePublished
  split
  · split <;> exact ⟨rfl, rfl⟩
  · exact ⟨rfl, rfl⟩

theorem keeps_takeIn (s : Site) (h : Handle) (l : Listener) (n : Notification) :
    (s.takeIn h l n).storage = s.storage ∧ (s.takeIn h l n).processes = s.processes := by
  cases l with
  | discovery l =>
      rcases hr : l.receive n with ⟨l', call⟩
      simp only [takeIn, hr]
      cases call with
      | none => exact keeps_notePublished _ _ _
      | some call => exact keeps_notePublished _ _ _
  | recovery target matched =>
      simp only [takeIn]
      split <;> exact ⟨rfl, rfl⟩
  | scripted label script => exact ⟨rfl, rfl⟩

theorem Step.keeps {s s' : Site} (h : Step s s') :
    s'.storage = s.storage ∧ s'.processes = s.processes := by
  cases h with
  | create domain profile =>
      cases hf : s.fabric.failNextCreate with
      | true =>
          rw [create_of_refused hf]
          exact ⟨rfl, rfl⟩
      | false =>
          rw [create_of_accepted hf]
          exact ⟨rfl, rfl⟩
  | close k =>
      unfold Site.close
      split <;> exact ⟨rfl, rfl⟩
  | delete k =>
      unfold Site.delete
      split <;> exact ⟨rfl, rfl⟩
  | hear => exact keeps_takeIn _ _ _ _
  | join => exact ⟨rfl, rfl⟩
  | announce => exact ⟨rfl, rfl⟩
  | withdraw => exact ⟨rfl, rfl⟩
  | changeQos => exact ⟨rfl, rfl⟩
  | configure => exact ⟨rfl, rfl⟩
  | lose => exact ⟨rfl, rfl⟩
  | settle => exact ⟨rfl, rfl⟩
  | remark => exact ⟨rfl, rfl⟩

theorem Step.sameRecords {s s' : Site} (h : Step s s') : s.SameRecords s' := by
  obtain ⟨hstorage, hprocesses⟩ := h.keeps
  refine ⟨hstorage, hprocesses, fun domain => ?_⟩
  obtain ⟨news, hseen, hnews⟩ := h.adds
  have hnone : news.findSome? (·.word? domain) = none :=
    List.findSome?_eq_none_iff.2 fun x hx => word?_of_isNews (hnews x hx) domain
  rw [Site.lastWord?, hseen, List.findSome?_append, hnone, Option.none_or, Site.lastWord?]

theorem Steps.sameRecords {s s' : Site} (h : Steps s s') : s.SameRecords s' := by
  induction h with
  | refl => exact .refl s
  | tail _ hstep ih => exact ih.trans hstep.sameRecords

theorem Drains.sameRecords {s s' : Site} (h : Drains s s') : s.SameRecords s' :=
  h.steps.sameRecords

theorem sameRecords_delete (s : Site) (h : Handle) : s.SameRecords (s.delete h).1 :=
  (Step.delete s h).sameRecords

theorem sameRecords_note {s : Site} {x : Sighting} (hx : ∀ domain, x.word? domain = none) :
    s.SameRecords (s.note x) :=
  ⟨rfl, rfl, fun domain => by rw [lastWord?_note, hx, Option.none_or]⟩

/-! ## What is told of servers -/

structure Says (word : Word) (domain : UInt32) (s s' : Site) : Prop where
  storage : s'.storage = s.storage
  processes : s'.processes = s.processes
  lastWord? : ∀ d, s'.lastWord? d = if d = domain then some word else s.lastWord? d

theorem says_note {s : Site} {x : Sighting} {word : Word} {domain : UInt32}
    (hx : ∀ d, x.word? d = if domain = d then some word else none) :
    s.Says word domain (s.note x) := by
  refine ⟨rfl, rfl, fun d => ?_⟩
  rw [lastWord?_note, hx]
  by_cases hd : d = domain
  · rw [if_pos hd.symm, if_pos hd, Option.some_or]
  · rw [if_neg (Ne.symm hd), if_neg hd, Option.none_or]

theorem Says.trans_same {word : Word} {domain : UInt32} {a b c : Site}
    (h : a.Says word domain b) (h' : b.SameRecords c) : a.Says word domain c :=
  ⟨h'.storage.trans h.storage, h'.processes.trans h.processes,
    fun d => (h'.lastWord? d).trans (h.lastWord? d)⟩

theorem SameRecords.trans_word {word : Word} {domain : UInt32} {a b c : Site}
    (h : a.SameRecords b) (h' : b.Says word domain c) : a.Says word domain c := by
  refine ⟨h'.storage.trans h.storage, h'.processes.trans h.processes, fun d => ?_⟩
  rw [h'.lastWord?, h.lastWord?]

theorem isSome_lastWord? {s s' : Site} (h : s.journal <+: s'.journal) {domain : UInt32}
    (hword : (s.lastWord? domain).isSome) : (s'.lastWord? domain).isSome := by
  obtain ⟨news, hnews⟩ := h
  have hseen : s'.seen = news.reverse ++ s.seen := by
    rw [← List.reverse_reverse s'.seen, ← journal, ← hnews, List.reverse_append, journal,
      List.reverse_reverse]
  rw [lastWord?, hseen, List.findSome?_append]
  cases news.reverse.findSome? (·.word? domain) with
  | none => exact hword
  | some word => rfl

theorem Move.processes_eq {s s' : Site} (h : Move s s') : s'.processes = s.processes := by
  cases h with
  | step h => exact h.keeps.2
  | keep => rfl
  | tell => rfl

theorem Moves.processes_eq {s s' : Site} (h : Moves s s') : s'.processes = s.processes := by
  induction h with
  | refl => rfl
  | tail _ hmove ih => rw [hmove.processes_eq, ih]

/-- Whether the store of a site recalls the last word on each domain: a start leaves a record
of the process itself, and an end leaves none. -/
structure Recalls (store : Store) (good : Storage → Prop) (s : Site) : Prop where
  good : good s.storage
  started : ∀ {domain}, s.lastWord? domain = some .started →
    ∃ r, store.load s.storage domain = .ok (some r) ∧ r.pid = s.processes.own
  ended : ∀ {domain}, s.lastWord? domain = some .ended → store.load s.storage domain = .ok none

section Stores

variable {store : Store} {good : Storage → Prop} {s s' : Site}

theorem Recalls.of_same (h : s.Recalls store good) (hsame : s.SameRecords s') :
    s'.Recalls store good := by
  refine ⟨?_, fun hword => ?_, fun hword => ?_⟩
  · rw [hsame.storage]
    exact h.good
  · rw [hsame.storage, hsame.processes]
    exact h.started ((hsame.lastWord? _).symm.trans hword)
  · rw [hsame.storage]
    exact h.ended ((hsame.lastWord? _).symm.trans hword)

/-- A word that a server was ended is made good by clearing the record. -/
theorem Recalls.clearRecord (h : s.Recalls store good) (hstore : store.Reliable good)
    {domain : UInt32} (hsaid : s.Says .ended domain s') :
    (s'.clearRecord store domain).Recalls store good := by
  have hgood : good s'.storage := hsaid.storage.symm ▸ h.good
  obtain ⟨storage, hclear, hgood', hload⟩ := hstore.clear domain hgood
  simp only [Site.clearRecord, hclear]
  refine ⟨hgood', fun {d} hword => ?_, fun {d} hword => ?_⟩
  · have hword' := (hsaid.lastWord? d).symm.trans hword
    by_cases hd : d = domain
    · rw [if_pos hd] at hword'
      cases hword'
    · rw [if_neg hd] at hword'
      simp only
      rw [hload, if_neg hd, hsaid.storage, hsaid.processes]
      exact h.started hword'
  · have hword' := (hsaid.lastWord? d).symm.trans hword
    simp only
    rw [hload]
    by_cases hd : d = domain
    · rw [if_pos hd]
    · rw [if_neg hd] at hword' ⊢
      rw [hsaid.storage]
      exact h.ended hword'

/-- A word that a server was started is made good by saving a record. -/
theorem Recalls.saveRecord (h : s.Recalls store good) (hstore : store.Reliable good)
    {record : ServerRecord} (hsaid : s.Says .started record.domain s')
    (hpid : record.pid = s.processes.own) : (s'.saveRecord store record).Recalls store good := by
  have hgood : good s'.storage := hsaid.storage.symm ▸ h.good
  obtain ⟨storage, hsave, hgood', hload⟩ := hstore.save record hgood
  simp only [Site.saveRecord, hsave]
  refine ⟨hgood', fun {d} hword => ?_, fun {d} hword => ?_⟩
  · have hword' := (hsaid.lastWord? d).symm.trans hword
    simp only
    rw [hload, hsaid.processes]
    by_cases hd : d = record.domain
    · rw [if_pos hd]
      exact ⟨record, rfl, hpid⟩
    · rw [if_neg hd] at hword' ⊢
      rw [hsaid.storage]
      exact h.started hword'
  · have hword' := (hsaid.lastWord? d).symm.trans hword
    by_cases hd : d = record.domain
    · rw [if_pos hd] at hword'
      cases hword'
    · rw [if_neg hd] at hword'
      simp only
      rw [hload, if_neg hd, hsaid.storage]
      exact h.ended hword'

end Stores

end Site

/-! ## What contexts do -/

namespace Context

open Site

variable {good : Storage → Prop} {c : Context} {t : Timing} {s : Site}

/-- The server that is held is taken down, and its record cleared. -/
theorem says_ended_discard (t : Timing) (s : Site) (previous : Running) :
    ∃ s', s.Says .ended previous.domain s' ∧
      c.discard t s previous = s'.clearRecord c.store previous.domain := by
  have hsaid : s.Says .ended previous.domain
      (s.note (.noticed (.serverReplaced previous.handle previous.domain))) :=
    says_note fun _ => rfl
  have hclosed := hsaid.trans_same ((Step.close _ previous.handle).sameRecords.trans
    (t.drains .closed _).sameRecords)
  exact ⟨_, hclosed.trans_same ((sameRecords_delete _ _).trans (t.drains .deleted _).sameRecords),
    rfl⟩

theorem recalls_discardHeld (hstore : c.store.Reliable good) (hs : s.Recalls c.store good) :
    (c.discardHeld t s).Recalls c.store good := by
  unfold discardHeld
  split
  · exact hs
  · rename_i previous _
    obtain ⟨s', hsaid, hdiscard⟩ := says_ended_discard (c := c) t s previous
    rw [hdiscard]
    exact hs.clearRecord hstore hsaid

theorem sameRecords_launched (c : Context) (t : Timing) (s : Site) (domain : UInt32)
    (registry : Registry) : (c.discardHeld t s).SameRecords (c.launched t s domain registry) := by
  have hstarting : (c.discardHeld t s).SameRecords (c.readied t s domain registry) :=
    sameRecords_note fun _ => rfl
  have hcreate : Site.Step (c.readied t s domain registry) (c.launched t s domain registry) :=
    .create _ domain _ (.discovery registry _)
  exact hstarting.trans hcreate.sameRecords

theorem recalls_start (hstore : c.store.Reliable good) (hs : s.Recalls c.store good)
    (domain : UInt32) (registry : Registry) :
    (c.start t s domain registry).2.1.Recalls c.store good := by
  have hlaunched := c.sameRecords_launched t s domain registry
  have hdiscarded := recalls_discardHeld (t := t) hstore hs
  cases hf : (c.readied t s domain registry).fabric.failNextCreate with
  | true =>
      rw [start_of_refused hf]
      exact hdiscarded.of_same hlaunched
  | false =>
      have hcreated := hlaunched.trans (t.drains .created _).sameRecords
      rw [start_of_accepted hf]
      refine hdiscarded.saveRecord hstore (hcreated.trans_word (says_note fun _ => rfl)) ?_
      exact congrArg ProcessTable.own hcreated.processes

/-- A stop of the server that the context runs. -/
theorem recalls_stop_of_local (hstore : c.store.Reliable good) (hs : s.Recalls c.store good)
    {domain : UInt32} {running : Running} (hlocal : c.serverOn? domain = some running) :
    (c.stop t s domain).2.1.Recalls c.store good := by
  have hdelete := sameRecords_delete s running.handle
  simp only [stop, hlocal]
  split <;> rename_i heq <;> rw [heq] at hdelete
  · exact hs.of_same hdelete
  · exact hs.clearRecord hstore ((hdelete.trans (t.drains .deleted _).sameRecords).trans_word
      (says_note fun _ => rfl))

theorem recalls_drop (hstore : c.store.Reliable good) (hs : s.Recalls c.store good) :
    (c.drop t s).Recalls c.store good := by
  unfold drop
  split
  · exact hs
  · rename_i running _
    have hdelete := sameRecords_delete s running.handle
    split <;> rename_i heq <;> rw [heq] at hdelete
    · exact hs.clearRecord hstore ((hdelete.trans (t.drains .deleted _).sameRecords).trans_word
        (says_note fun _ => rfl))
    · exact hs.of_same hdelete

theorem isSome_lastWord?_start {domain : UInt32} {registry : Registry} {running : Running}
    (hr : (c.start t s domain registry).1.server = some running) :
    ((c.start t s domain registry).2.1.lastWord? running.domain).isSome := by
  cases hf : (c.readied t s domain registry).fabric.failNextCreate with
  | true =>
      rw [start_of_refused hf] at hr
      cases hr
  | false =>
      rw [start_of_accepted hf] at hr ⊢
      cases hr
      refine isSome_lastWord? (paces_saveRecord _ _ _).moves.journal_grows ?_
      rw [lastWord?_note]
      simp [Sighting.word?, Notice.word?]

end Context

/-! ## Runs -/

namespace Deployment

/-- Whether an operation stops only what the context asked runs itself, and brings no store
but the shared one. -/
structure IsLocal (d : Deployment) (op : Operation) : Prop where
  stop : ∀ c domain, d.AsksToStop op c domain → (c.serverOn? domain).isSome = true
  store : ∀ config, op ≠ .install config true

inductive LocalStep : Deployment → Deployment → Prop
  | act {d : Deployment} {op : Operation} (h : d.IsLocal op) (t : Timing) :
      LocalStep d (d.act t op).1
  | deliver {d : Deployment} {site : Site} (h : d.site.step? = some site) :
      LocalStep d { d with site }

abbrev LocalRun : Deployment → Deployment → Prop := Relation.ReflTransGen LocalStep

theorem store_dropContext (d : Deployment) (t : Timing) (name : String) :
    (d.dropContext t name).store = d.store := by
  unfold dropContext
  split <;> rfl

theorem store_act (d : Deployment) (t : Timing) (op : Operation) :
    (d.act t op).1.store = d.store := by
  cases op with
  | newContext name config =>
      simp only [act]
      split
      · rfl
      · exact store_dropContext d t name
  | dropContext name => exact store_dropContext d t name
  | start name domain registry =>
      simp only [act, withContext]
      split
      · rfl
      · split <;> rfl
  | stop name domain =>
      simp only [act, withContext]
      split
      · rfl
      · split <;> rfl
  | install config ownFiles =>
      simp only [act]
      split <;> rfl
  | command => rfl
  | startInstalled => rfl
  | stopInstalled => rfl
  | shutdown => rfl
  | isRunning name domain => exact ((Looks.isRunning name domain).sameContexts d t).store
  | report name => exact ((Looks.report name).sameContexts d t).store
  | holdGraph name => exact ((Looks.holdGraph name).sameContexts d t).store
  | heldGraph name => exact ((Looks.heldGraph name).sameContexts d t).store
  | bind category function context =>
      exact ((Looks.bind category function context).sameContexts d t).store
  | installedIsRunning domain => exact ((Looks.installedIsRunning domain).sameContexts d t).store
  | initLogging => exact (Looks.initLogging.sameContexts d t).store

structure IsTruthful (store : Store) (good : Storage → Prop) (processes : ProcessTable)
    (d : Deployment) : Prop where
  recalls : d.site.Recalls store good
  processes_eq : d.site.processes = processes
  store_eq : d.store = store
  shared : ∀ {c}, d.Owns c → c.store = store
  told : ∀ {c running}, d.Owns c → c.server = some running →
    (d.site.lastWord? running.domain).isSome

section Truthful

variable {store : Store} {good : Storage → Prop} {processes : ProcessTable}

theorem isTruthful_new {storage : Storage} (hgood : good storage) :
    (new (Site.new storage processes) store).IsTruthful store good processes where
  recalls := ⟨hgood, nofun, nofun⟩
  processes_eq := rfl
  store_eq := rfl
  shared := by
    rintro c (⟨name, hc⟩ | hc)
    · simp [new] at hc
    · simp [new, HostInterface.Bridge.initial] at hc
  told := by
    rintro c running (⟨name, hc⟩ | hc)
    · simp [new] at hc
    · simp [new, HostInterface.Bridge.initial] at hc

theorem IsTruthful.recalls_act {d : Deployment} (h : d.IsTruthful store good processes)
    (hstore : store.Reliable good) {op : Operation} (hlocal : d.IsLocal op) (t : Timing) :
    (d.act t op).1.site.Recalls store good := by
  have heffect := effect_act d t op
  generalize (d.act t op).1.site = s at heffect ⊢
  cases heffect with
  | idle => exact h.recalls
  | command _ => exact h.recalls.of_same (Site.steps_perform _ _).sameRecords
  | drop hc =>
      obtain rfl := h.shared hc
      exact Context.recalls_drop hstore h.recalls
  | start hc domain registry =>
      obtain rfl := h.shared hc
      exact Context.recalls_start hstore h.recalls domain registry
  | @stop c domain hasks =>
      obtain rfl := h.shared hasks.owns
      obtain ⟨running, hrunning⟩ := Option.isSome_iff_exists.1 (hlocal.stop c domain hasks)
      exact Context.recalls_stop_of_local hstore h.recalls hrunning

theorem shared_act {d : Deployment} {t : Timing} (hstore : d.store = store)
    (hshared : ∀ {c}, d.Owns c → c.store = store) {op : Operation}
    (hown : ∀ config, op ≠ .install config true) {c : Context} (hc : (d.act t op).1.Owns c) :
    c.store = store := by
  cases comesOf_act hc with
  | stays hc => exact hshared hc
  | stopped hbefore =>
      have hsame := hshared hbefore
      exact hsame
  | @made config store' hmade =>
      rcases hmade with hsame | howns
      · exact hsame.trans hstore
      · exact absurd howns (hown config)
  | started hbefore hsite => exact (Context.store_start _ _ _ _ _).trans (hshared hbefore)

theorem IsTruthful.act {d : Deployment} (h : d.IsTruthful store good processes)
    (hstore : store.Reliable good) {op : Operation} (hlocal : d.IsLocal op) (t : Timing) :
    (d.act t op).1.IsTruthful store good processes where
  recalls := h.recalls_act hstore hlocal t
  processes_eq := (moves_act d t op).processes_eq.trans h.processes_eq
  store_eq := (store_act d t op).trans h.store_eq
  shared hc := shared_act h.store_eq h.shared hlocal.store hc
  told := by
    intro c running hc hr
    cases comesOf_act hc with
    | stays hc => exact Site.isSome_lastWord? (moves_act d t op).journal_grows (h.told hc hr)
    | stopped => simp at hr
    | made => simp at hr
    | started hc hsite =>
        rw [hsite]
        exact Context.isSome_lastWord?_start hr

theorem LocalRun.isTruthful (hstore : store.Reliable good) {d d' : Deployment}
    (h : d.IsTruthful store good processes) (hrun : LocalRun d d') :
    d'.IsTruthful store good processes := by
  induction hrun with
  | refl => exact h
  | tail _ hstep ih =>
      cases hstep with
      | act hlocal t => exact ih.act hstore hlocal t
      | deliver hdeliver =>
          have hsteps := Site.steps_of_step? hdeliver
          exact ⟨ih.recalls.of_same hsteps.sameRecords,
            hsteps.sameRecords.processes.trans ih.processes_eq, ih.store_eq, ih.shared,
            fun hc hr => Site.isSome_lastWord? hsteps.moves.journal_grows (ih.told hc hr)⟩

end Truthful

/-- Where a context runs a server, another one reports it exactly if it runs a server there
itself or the last word on the domain was a start. -/
theorem LocalRun.isRunning_iff {store : Store} {good : Storage → Prop}
    (hstore : store.Reliable good) {storage : Storage} (hfirst : good storage)
    {processes : ProcessTable} (hown : processes.isAlive processes.own = true) {d : Deployment}
    (hrun : LocalRun (new (Site.new storage processes) store) d) {b : Context} (hb : d.Owns b)
    {running : Running} (hr : b.server = some running) {c : Context} (hc : d.Owns c) :
    c.isRunning d.site running.domain = true ↔
      (c.serverOn? running.domain).any (d.site.fabric.isEnabled ·.handle) = true ∨
        d.site.lastWord? running.domain = some .started := by
  have h := LocalRun.isTruthful hstore (isTruthful_new hfirst) hrun
  obtain ⟨word, hword⟩ := Option.isSome_iff_exists.1 (h.told hb hr)
  unfold Context.isRunning
  rw [h.shared hc]
  split
  · rename_i hheld
    exact iff_of_true rfl (.inl hheld)
  · rename_i hheld
    cases word with
    | started =>
        obtain ⟨record, hload, hpid⟩ := h.recalls.started hword
        rw [hload]
        simp only [hpid, h.processes_eq, hown, hword, or_true]
    | ended =>
        rw [h.recalls.ended hword, hword]
        simp [hheld]

theorem localRun_perform {d : Deployment} {op : Operation} (h : d.IsLocal op) :
    LocalRun d (d.perform op).1 := by
  have hdrains : ∀ {s s' : Site}, Site.Drains s s' →
      LocalRun { (d.act .prompt op).1 with site := s }
        { (d.act .prompt op).1 with site := s' } := by
    intro s s' hrow
    induction hrow with
    | refl => exact .refl
    | @head s _ _ hstep _ ih =>
        exact .head (.deliver (d := { (d.act .prompt op).1 with site := s }) hstep) ih
  exact .head (.act h .prompt) (hdrains (Site.drains_drain (d.act .prompt op).1.site))

/-- What is neither a stop nor an installation is local. -/
theorem isLocal_of_not {d : Deployment} {op : Operation} (hstop : ∀ name domain,
    op ≠ .stop name domain) (hinstalled : ∀ domain, op ≠ .stopInstalled domain)
    (hinstall : ∀ config, op ≠ .install config true) : d.IsLocal op where
  stop c domain hasks := by
    rcases hasks with ⟨name, hop, _⟩ | ⟨hop, _⟩
    · exact absurd hop (hstop name domain)
    · exact absurd hop (hinstalled domain)
  store := hinstall

/-- Two contexts that run a server on the same domain. -/
def withRivals : Deployment :=
  (new (Site.new .empty ⟨1, [], 0⟩) .memory).performAll
    [.newContext "A" (Config.default (.ofString "state")),
      .newContext "B" (Config.default (.ofString "state")),
      .start "A" 1 .empty, .start "B" 1 .empty]

def rival (server : Option Handle) : Context :=
  ⟨Config.default (.ofString "state"), .memory, server.map (⟨1, ·⟩)⟩

theorem localRun_withRivals : LocalRun (new (Site.new .empty ⟨1, [], 0⟩) .memory) withRivals := by
  have hlocal : ∀ {d op}, op ∈ [.newContext "A" (Config.default (.ofString "state")),
      .newContext "B" (Config.default (.ofString "state")), .start "A" 1 .empty,
      .start "B" 1 .empty] → IsLocal d op := by
    intro d op hop
    simp only [List.mem_cons, List.not_mem_nil, or_false] at hop
    rcases hop with rfl | rfl | rfl | rfl <;> exact isLocal_of_not (by simp) (by simp) (by simp)
  exact (((localRun_perform (hlocal (by simp))).trans (localRun_perform (hlocal (by simp)))).trans
    (localRun_perform (hlocal (by simp)))).trans (localRun_perform (hlocal (by simp)))

theorem isRunning_rival :
    (rival (some ⟨1⟩)).isRunning withRivals.site 1 = true := by
  have ha : withRivals.Owns (rival (some ⟨1⟩)) := .inl ⟨"A", by cbv⟩
  have hb : withRivals.Owns (rival (some ⟨2⟩)) := .inl ⟨"B", by cbv⟩
  have hword : withRivals.site.lastWord? 1 = some .started := by cbv
  exact (localRun_withRivals.isRunning_iff Store.reliable_memory trivial (by decide) hb rfl ha).2
    (.inr hword)

/-- Once one of the two is stopped, the other one still runs and is reported no more. -/
theorem not_isRunning_rival :
    LocalRun (new (Site.new .empty ⟨1, [], 0⟩) .memory) (withRivals.perform (.stop "A" 1)).1 ∧
      (withRivals.perform (.stop "A" 1)).1.Owns (rival (some ⟨2⟩)) ∧
      (withRivals.perform (.stop "A" 1)).1.site.fabric.isEnabled ⟨2⟩ = true ∧
      (withRivals.perform (.stop "A" 1)).1.Owns (rival none) ∧
      (rival none).isRunning (withRivals.perform (.stop "A" 1)).1.site 1 = false := by
  have ha : withRivals.contexts.find? "A" = some (rival (some ⟨1⟩)) := by cbv
  have hlocal : withRivals.IsLocal (.stop "A" 1) := by
    refine ⟨?_, by simp⟩
    rintro c domain (⟨name, hop, hc⟩ | ⟨hop, _⟩)
    · cases hop
      rw [ha] at hc
      cases hc
      rfl
    · cases hop
  have hstopped : (withRivals.perform (.stop "A" 1)).1.Owns (rival none) := .inl ⟨"A", by cbv⟩
  have hruns : (withRivals.perform (.stop "A" 1)).1.Owns (rival (some ⟨2⟩)) := .inl ⟨"B", by cbv⟩
  exact ⟨localRun_withRivals.trans (localRun_perform hlocal), hruns, by cbv, hstopped, by cbv⟩

end Deployment

end Rendezvous
