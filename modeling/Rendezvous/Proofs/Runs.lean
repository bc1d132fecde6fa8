import Rendezvous.Deployment
import Rendezvous.Proofs.Attendance

/-!
# Runs

A context acts on its site by small steps, by what it keeps in its store, and by what it
tells of its servers. A run of a deployment is any row of operations and of single
deliveries, from a deployment in which nothing has happened yet. Main statement: what one
move keeps, and what holds of every server as it is created, holds of every server that a
context holds, all along the run.
-/

namespace Rendezvous

namespace Site

inductive Move : Site → Site → Prop
  | step {s s' : Site} (h : Step s s') : Move s s'
  | keep (s : Site) (storage : Storage) : Move s { s with storage }
  | tell (s : Site) {notice : Notice} (h : notice.IsOfServer) : Move s (s.note (.noticed notice))

abbrev Moves : Site → Site → Prop := Relation.ReflTransGen Move

theorem Steps.moves {s s' : Site} (h : Steps s s') : Moves s s' :=
  Relation.ReflTransGen.mono (fun _ _ => Move.step) _ _ h

theorem Move.sound {s s' : Site} (h : Move s s') (hs : s.Sound) : s'.Sound := by
  cases h with
  | step h => exact h.sound hs
  | keep storage => exact ⟨hs.fabric, hs.mem_roll⟩
  | tell h =>
      refine ⟨hs.fabric, fun a => ?_⟩
      rw [roll_note]
      cases h <;> exact hs.mem_roll a

theorem Moves.sound {s s' : Site} (h : Moves s s') (hs : s.Sound) : s'.Sound := by
  induction h with
  | refl => exact hs
  | tail _ hmove ih => exact hmove.sound ih

theorem Moves.invariant {P : Site → Prop}
    (hmove : ∀ {s s' : Site}, Move s s' → s.Sound → P s → P s') {s s' : Site} (h : Moves s s')
    (hs : s.Sound) (hP : P s) : P s' := by
  induction h with
  | refl => exact hP
  | tail hrow hlast ih => exact hmove hlast (Moves.sound hrow hs) ih

theorem Move.isLater {s s' : Site} (h : Move s s') : s'.fabric.IsLater s.fabric := by
  cases h with
  | step h => exact h.fabric.isLater
  | keep => exact .refl _
  | tell => exact .refl _

theorem Moves.isLater {s s' : Site} (h : Moves s s') : s'.fabric.IsLater s.fabric := by
  induction h with
  | refl => exact .refl _
  | tail _ hmove ih => exact hmove.isLater.trans ih

/-! ## What no move takes back -/

theorem Adds.journal_grows {s s' : Site} (h : s.Adds s') : s.journal <+: s'.journal := by
  obtain ⟨news, hseen, _⟩ := h
  rw [journal, journal, hseen, List.reverse_append]
  exact List.prefix_append _ _

theorem Move.journal_grows {s s' : Site} (h : Move s s') : s.journal <+: s'.journal := by
  cases h with
  | step h => exact h.adds.journal_grows
  | keep => exact List.prefix_rfl
  | tell => exact journal_note s _ ▸ List.prefix_append _ _

theorem Moves.journal_grows {s s' : Site} (h : Moves s s') : s.journal <+: s'.journal := by
  induction h with
  | refl => exact List.prefix_rfl
  | tail _ hmove ih => exact ih.trans hmove.journal_grows

/-! ## What contexts do to their site -/

/-- What is done at a site as seen from outside: a delivery is made with all that the listener
does meanwhile. -/
inductive Pace : Site → Site → Prop
  | perform (s : Site) (c : Command) : Pace s (s.perform c).1
  | create (s : Site) (domain : UInt32) (profile : Profile) {l : Listener} (hl : l.IsNew) :
      Pace s (s.create domain profile l).1
  | close (s : Site) (h : Handle) : Pace s (s.close h)
  | delete (s : Site) (h : Handle) : Pace s (s.delete h).1
  | deliver {s s' : Site} (h : s.step? = some s') : Pace s s'
  | keep (s : Site) (storage : Storage) : Pace s { s with storage }
  | tell (s : Site) {notice : Notice} (h : notice.IsOfServer) : Pace s (s.note (.noticed notice))

abbrev Paces : Site → Site → Prop := Relation.ReflTransGen Pace

theorem Pace.moves {s s' : Site} (h : Pace s s') : Moves s s' := by
  cases h with
  | perform c => exact (steps_perform s c).moves
  | create domain profile hl => exact .single (.step (.create s domain profile hl))
  | close k => exact .single (.step (.close s k))
  | delete k => exact .single (.step (.delete s k))
  | deliver h => exact (steps_of_step? h).moves
  | keep storage => exact .single (.keep s storage)
  | tell h => exact .single (.tell s h)

theorem Paces.moves {s s' : Site} (h : Paces s s') : Moves s s' := by
  induction h with
  | refl => exact .refl
  | tail _ hpace ih => exact ih.trans hpace.moves

theorem Drains.paces {s s' : Site} (h : Drains s s') : Paces s s' := by
  induction h with
  | refl => exact .refl
  | head hstep _ ih => exact .head (.deliver hstep) ih

theorem paces_pause (t : Timing) (moment : Moment) (s : Site) : Paces s (t.pause moment s) :=
  (t.drains moment s).paces

theorem paces_close (t : Timing) (moment : Moment) (s : Site) (h : Handle) :
    Paces s (t.pause moment (s.close h)) := .head (.close s h) (paces_pause t moment _)

theorem paces_delete (t : Timing) (moment : Moment) (s : Site) (h : Handle) :
    Paces s (t.pause moment (s.delete h).1) := .head (.delete s h) (paces_pause t moment _)

theorem paces_saveRecord (s : Site) (store : Store) (record : ServerRecord) :
    Paces s (s.saveRecord store record) := by
  simp only [saveRecord]
  split
  · exact .single (.keep s _)
  · exact .tail (.single (.keep s _)) (.tell _ (.notSaved _ _))

theorem paces_clearRecord (s : Site) (store : Store) (domain : UInt32) :
    Paces s (s.clearRecord store domain) := by
  simp only [clearRecord]
  split
  · exact .single (.keep s _)
  · exact .tail (.single (.keep s _)) (.tell _ (.notCleared _ _))

theorem paces_clearStaleRecord (s : Site) (store : Store) (domain : UInt32) :
    Paces s (s.clearStaleRecord store domain) := by
  simp only [clearStaleRecord]
  split
  · split
    · exact .refl
    · exact paces_clearRecord _ _ _
  · exact .refl

end Site

namespace Context

open Site

theorem paces_discardHeld (c : Context) (t : Timing) (s : Site) :
    Paces s (c.discardHeld t s) := by
  simp only [discardHeld]
  split
  · exact .refl
  · exact (((Relation.ReflTransGen.single (.tell s (.replaced _ _))).trans
      (paces_close t .closed _ _)).trans (paces_delete t .deleted _ _)).trans
        (paces_clearRecord _ _ _)

/-- The site as it is when a start is about to create the server. -/
def readied (c : Context) (t : Timing) (s : Site) (domain : UInt32) (registry : Registry) :
    Site :=
  (c.discardHeld t s).note (.noticed (.serverStarting domain registry))

theorem paces_readied (c : Context) (t : Timing) (s : Site) (domain : UInt32)
    (registry : Registry) : Paces s (c.readied t s domain registry) :=
  (c.paces_discardHeld t s).tail (.tell _ (.starting domain registry))

/-- The site as it is when a start has created the server, before any delivery is made. -/
def launched (c : Context) (t : Timing) (s : Site) (domain : UInt32) (registry : Registry) :
    Site :=
  ((c.readied t s domain registry).create domain c.config.serverQos.profile
    (c.serverListener registry)).1

theorem start_of_refused {c : Context} {t : Timing} {s : Site} {domain : UInt32}
    {registry : Registry} (h : (c.readied t s domain registry).fabric.failNextCreate = true) :
    c.start t s domain registry =
      ({ c with server := none }, c.launched t s domain registry,
        .error (.creationFailure domain)) := by
  simp only [launched, create_of_refused h]
  simp only [readied] at h
  simp [start, readied, create_of_refused h]

theorem start_of_accepted {c : Context} {t : Timing} {s : Site} {domain : UInt32}
    {registry : Registry} (h : (c.readied t s domain registry).fabric.failNextCreate = false) :
    c.start t s domain registry =
      ({ c with server := some ⟨domain, (c.readied t s domain registry).fabric.nextHandle⟩ },
        ((t.pause .created (c.launched t s domain registry)).note (.noticed (.serverStarted
          c.config.serverPrefix domain
          (c.readied t s domain registry).fabric.nextHandle))).saveRecord c.store
            (.started (t.pause .created (c.launched t s domain registry)).processes domain
              c.config.serverPrefix),
        .ok (c.readied t s domain registry).fabric.nextHandle) := by
  simp only [launched, create_of_accepted h]
  simp only [readied] at h
  simp [start, readied, create_of_accepted h]
  rfl

theorem paces_launched (c : Context) (t : Timing) (s : Site) (domain : UInt32)
    (registry : Registry) : Paces s (c.launched t s domain registry) :=
  (c.paces_readied t s domain registry).tail (.create _ domain _ (.discovery registry _))

theorem paces_start_of_launched (c : Context) (t : Timing) (s : Site) (domain : UInt32)
    (registry : Registry) :
    Paces (c.launched t s domain registry) (c.start t s domain registry).2.1 := by
  cases h : (c.readied t s domain registry).fabric.failNextCreate with
  | true =>
      rw [start_of_refused h]
  | false =>
      rw [start_of_accepted h]
      exact ((paces_pause t .created _).tail (.tell _ (.started _ _ _))).trans
        (paces_saveRecord _ _ _)

theorem paces_start (c : Context) (t : Timing) (s : Site) (domain : UInt32)
    (registry : Registry) : Paces s (c.start t s domain registry).2.1 :=
  (c.paces_launched t s domain registry).trans (c.paces_start_of_launched t s domain registry)

theorem store_start (c : Context) (t : Timing) (s : Site) (domain : UInt32)
    (registry : Registry) : (c.start t s domain registry).1.store = c.store := by
  cases h : (c.readied t s domain registry).fabric.failNextCreate with
  | true => rw [start_of_refused h]
  | false => rw [start_of_accepted h]

theorem paces_recover (c : Context) (t : Timing) (s : Site) (domain : UInt32) :
    Paces s (c.recover t s domain).1 := by
  have hjoin := Pace.create s domain c.config.recoveryQos.profile
    (.recovery c.config.serverPrefix)
  simp only [recover]
  split
  · rename_i heq
    rw [heq] at hjoin
    exact .single hjoin
  · rename_i h heq
    rw [heq] at hjoin
    refine ((Relation.ReflTransGen.head hjoin (paces_pause t .waiting _)).trans
      (paces_delete t .deleted _ h)).trans ?_
    simp only
    split
    · exact paces_clearRecord _ _ _
    · exact paces_clearStaleRecord _ _ _

theorem paces_stop (c : Context) (t : Timing) (s : Site) (domain : UInt32) :
    Paces s (c.stop t s domain).2.1 := by
  simp only [stop]
  split
  · rename_i running _
    have hdelete := Pace.delete s running.handle
    split <;> rename_i heq <;> rw [heq] at hdelete
    · exact .single hdelete
    · exact ((Relation.ReflTransGen.head hdelete (paces_pause t .deleted _)).tail
        (.tell _ (.stopped domain))).trans (paces_clearRecord _ _ _)
  · exact paces_recover c t s domain

/-- A stop keeps the context as it was, or leaves it without a server. -/
theorem stop_context (c : Context) (t : Timing) (s : Site) (domain : UInt32) :
    (c.stop t s domain).1 = c ∨ (c.stop t s domain).1 = { c with server := none } := by
  simp only [stop]
  split
  · split
    · exact .inl rfl
    · exact .inr rfl
  · exact .inl rfl

theorem paces_drop (c : Context) (t : Timing) (s : Site) : Paces s (c.drop t s) := by
  simp only [drop]
  split
  · exact .refl
  · rename_i running _
    have hdelete := Pace.delete s running.handle
    split <;> rename_i heq <;> rw [heq] at hdelete
    · exact ((Relation.ReflTransGen.head hdelete (paces_pause t .deleted _)).tail
        (.tell _ (.dropped _ _))).trans (paces_clearRecord _ _ _)
    · exact .single hdelete

theorem new_eq_ok {config : Config} {store : Store} {c : Context}
    (h : Context.new config store = .ok c) : c = ⟨config, store, none⟩ := by
  simp only [Context.new] at h
  split at h
  · simpa using h.symm
  · simp at h

end Context

namespace Deployment

/-- What a deployment does next: what an operation asks, at whatever timing, or one delivery. -/
inductive Step : Deployment → Deployment → Prop
  | act (d : Deployment) (t : Timing) (op : Operation) : Step d (d.act t op).1
  | deliver {d : Deployment} {site : Site} (h : d.site.step? = some site) :
      Step d { d with site }

/-- A row of operations and deliveries, in any order. -/
abbrev Run : Deployment → Deployment → Prop := Relation.ReflTransGen Step

/-- Whether a run leads to a deployment from one in which nothing has happened yet. -/
def Reachable (d : Deployment) : Prop :=
  ∃ storage processes store, Run (new (Site.new storage processes) store) d

/-- Whether a context is one of those that drive a deployment, under a name or installed. -/
def Owns (d : Deployment) (c : Context) : Prop :=
  (∃ name, d.contexts.find? name = some c) ∨ d.bridge.installed = some c

theorem run_drains (d : Deployment) {s s' : Site} (h : Site.Drains s s') :
    Run { d with site := s } { d with site := s' } := by
  induction h with
  | refl => exact .refl
  | @head s _ _ hstep _ ih => exact .head (.deliver (d := { d with site := s }) hstep) ih

/-- An operation with every delivery made is part of a run. -/
theorem run_perform (d : Deployment) (op : Operation) : Run d (d.perform op).1 :=
  .head (.act d .prompt op) (run_drains _ (Site.drains_drain _))

theorem run_performAll (d : Deployment) (ops : List Operation) : Run d (d.performAll ops) := by
  induction ops generalizing d with
  | nil => exact .refl
  | cons op ops ih => exact (run_perform d op).trans (ih _)

/-! ## What operations do -/

/-- Whether an operation only looks at what is there, or binds what a later start will use. -/
inductive Looks : Operation → Prop
  | isRunning (name : String) (domain : UInt32) : Looks (.isRunning name domain)
  | report (name : String) : Looks (.report name)
  | holdGraph (name : String) : Looks (.holdGraph name)
  | heldGraph (name : String) : Looks (.heldGraph name)
  | bind (category : Category) (function : Option Nat) (context : Option String) :
      Looks (.bind category function context)
  | installedIsRunning (domain : UInt32) : Looks (.installedIsRunning domain)
  | initLogging : Looks .initLogging

structure SameContexts (d d' : Deployment) : Prop where
  site : d'.site = d.site
  store : d'.store = d.store
  contexts : d'.contexts = d.contexts
  installed : d'.bridge.installed = d.bridge.installed

theorem SameContexts.refl (d : Deployment) : SameContexts d d := ⟨rfl, rfl, rfl, rfl⟩

theorem SameContexts.owns {d d' : Deployment} (h : SameContexts d d') {c : Context}
    (hc : d'.Owns c) : d.Owns c := by
  rcases hc with ⟨name, hc⟩ | hc
  · exact .inl ⟨name, h.contexts ▸ hc⟩
  · exact .inr (h.installed ▸ hc)

theorem Looks.sameContexts {op : Operation} (h : Looks op) (d : Deployment) (t : Timing) :
    SameContexts d (d.act t op).1 := by
  cases h with
  | isRunning name domain =>
      simp only [act, withContext]
      split <;> exact .refl d
  | report name =>
      simp only [act, withContext]
      split <;> exact .refl d
  | holdGraph name =>
      simp only [act, withContext]
      split
      · exact .refl d
      · split
        · exact .refl d
        · exact ⟨rfl, rfl, rfl, rfl⟩
  | heldGraph name =>
      simp only [act]
      split <;> exact .refl d
  | bind category function context =>
      simp only [act, HostInterface.Bridge.bind]
      split <;> exact ⟨rfl, rfl, rfl, rfl⟩
  | installedIsRunning domain => exact .refl d
  | initLogging => exact .refl d

/-- Whether an operation asks a context to stop the server of a domain. -/
def AsksToStop (d : Deployment) (op : Operation) (c : Context) (domain : UInt32) : Prop :=
  (∃ name, op = .stop name domain ∧ d.contexts.find? name = some c) ∨
    op = .stopInstalled domain ∧ d.bridge.installed = some c

inductive Effect (d : Deployment) (t : Timing) (op : Operation) : Site → Prop
  | idle : Effect d t op d.site
  | command {c : Command} (h : op = .command c) : Effect d t op (d.site.perform c).1
  | drop {c : Context} (hc : d.Owns c) : Effect d t op (c.drop t d.site)
  | start {c : Context} (hc : d.Owns c) (domain : UInt32) (registry : Registry) :
      Effect d t op (c.start t d.site domain registry).2.1
  | stop {c : Context} {domain : UInt32} (h : d.AsksToStop op c domain) :
      Effect d t op (c.stop t d.site domain).2.1

theorem AsksToStop.owns {d : Deployment} {op : Operation} {c : Context} {domain : UInt32}
    (h : d.AsksToStop op c domain) : d.Owns c := by
  rcases h with ⟨name, _, hc⟩ | ⟨_, hc⟩
  · exact .inl ⟨name, hc⟩
  · exact .inr hc

theorem withContext_none {d : Deployment} {name : String} (h : d.contexts.find? name = none)
    (f : Context → Deployment × Answer) : d.withContext name f = (d, .unknownContext) := by
  simp only [withContext, h]

theorem act_start {d : Deployment} {name : String} {c : Context}
    (hc : d.contexts.find? name = some c) (t : Timing) (domain : UInt32) (registry : Registry) :
    (d.act t (.start name domain registry)).1 =
      { d with site := (c.start t d.site domain registry).2.1 }.setContext name
        (c.start t d.site domain registry).1 := by
  simp only [act, withContext, hc]
  split <;> rename_i heq <;> rw [heq]

theorem act_stop {d : Deployment} {name : String} {c : Context}
    (hc : d.contexts.find? name = some c) (t : Timing) (domain : UInt32) :
    (d.act t (.stop name domain)).1 =
      { d with site := (c.stop t d.site domain).2.1 }.setContext name
        (c.stop t d.site domain).1 := by
  simp only [act, withContext, hc]
  split <;> rename_i heq <;> rw [heq]

theorem AsksToStop.site_act {d : Deployment} {op : Operation} {c : Context} {domain : UInt32}
    (h : d.AsksToStop op c domain) (t : Timing) :
    (d.act t op).1.site = (c.stop t d.site domain).2.1 := by
  rcases h with ⟨name, rfl, hc⟩ | ⟨rfl, hc⟩
  · rw [act_stop hc t]
    rfl
  · simp only [act, answered, HostInterface.Bridge.stop, hc]

theorem effect_dropContext (d : Deployment) (t : Timing) (op : Operation) (name : String) :
    d.Effect t op (d.dropContext t name).site := by
  simp only [dropContext]
  split
  · exact .idle
  · rename_i c hc
    exact .drop (.inl ⟨name, hc⟩)

theorem effect_dropInstalled (d : Deployment) (t : Timing) (op : Operation) :
    d.Effect t op (d.bridge.dropInstalled t d.site) := by
  simp only [HostInterface.Bridge.dropInstalled]
  split
  · exact .idle
  · rename_i c hc
    exact .drop (.inr hc)

theorem Looks.effect {op : Operation} (h : Looks op) (d : Deployment) (t : Timing) :
    d.Effect t op (d.act t op).1.site := by
  rw [(h.sameContexts d t).site]
  exact .idle

theorem effect_act (d : Deployment) (t : Timing) (op : Operation) :
    d.Effect t op (d.act t op).1.site := by
  cases op with
  | command c => exact .command rfl
  | newContext name config =>
      simp only [act]
      split
      · exact .idle
      · exact effect_dropContext d t _ name
  | dropContext name => exact effect_dropContext d t _ name
  | start name domain registry =>
      cases hc : d.contexts.find? name with
      | none =>
          rw [act, withContext_none hc]
          exact .idle
      | some c =>
          rw [act_start hc t]
          exact .start (.inl ⟨name, hc⟩) domain registry
  | stop name domain =>
      cases hc : d.contexts.find? name with
      | none =>
          rw [act, withContext_none hc]
          exact .idle
      | some c =>
          rw [act_stop hc t]
          exact .stop (.inl ⟨name, rfl, hc⟩)
  | install config ownFiles =>
      simp only [act, HostInterface.Bridge.install]
      cases Context.new config (if ownFiles then .folder config.stateDir else d.store) with
      | error e => exact .idle
      | ok c => exact effect_dropInstalled d t _
  | startInstalled domain =>
      simp only [act, answered, HostInterface.Bridge.start]
      split
      · exact .idle
      · rename_i c hc
        exact .start (.inr hc) domain _
  | stopInstalled domain =>
      simp only [act, answered, HostInterface.Bridge.stop]
      split
      · exact .idle
      · rename_i c hc
        exact .stop (.inr ⟨rfl, hc⟩)
  | shutdown => exact effect_dropInstalled d t _
  | isRunning name domain => exact (Looks.isRunning name domain).effect d t
  | report name => exact (Looks.report name).effect d t
  | holdGraph name => exact (Looks.holdGraph name).effect d t
  | heldGraph name => exact (Looks.heldGraph name).effect d t
  | bind category function context => exact (Looks.bind category function context).effect d t
  | installedIsRunning domain => exact (Looks.installedIsRunning domain).effect d t
  | initLogging => exact Looks.initLogging.effect d t

theorem Effect.paces {d : Deployment} {t : Timing} {op : Operation} {s : Site}
    (h : d.Effect t op s) :
    Site.Paces d.site s := by
  cases h with
  | idle => exact .refl
  | command _ => exact .single (.perform d.site _)
  | @drop c _ => exact c.paces_drop t d.site
  | @start c _ domain registry => exact c.paces_start t d.site domain registry
  | @stop c domain _ => exact c.paces_stop t d.site domain

theorem paces_act (d : Deployment) (t : Timing) (op : Operation) :
    Site.Paces d.site (d.act t op).1.site :=
  (effect_act d t op).paces

theorem moves_act (d : Deployment) (t : Timing) (op : Operation) :
    Site.Moves d.site (d.act t op).1.site :=
  (paces_act d t op).moves

/-! ## Who holds which server -/

theorem owns_dropContext {d : Deployment} {t : Timing} {name : String} {c : Context}
    (h : (d.dropContext t name).Owns c) : d.Owns c := by
  simp only [dropContext] at h
  split at h
  · exact h
  · rcases h with ⟨name', h⟩ | h
    · rw [OrderedMap.find?_erase] at h
      split at h
      · simp at h
      · exact .inl ⟨name', h⟩
    · exact .inr h

theorem owns_setContext {d : Deployment} {name : String} {c c' : Context}
    (h : (d.setContext name c).Owns c') : c' = c ∨ d.Owns c' := by
  rcases h with ⟨name', h⟩ | h
  · simp only [setContext, OrderedMap.find?_insert] at h
    split at h
    · exact .inl (Option.some.inj h).symm
    · exact .inr (.inl ⟨name', h⟩)
  · exact .inr (.inr h)

inductive ComesOf (d : Deployment) (t : Timing) (op : Operation) : Context → Prop
  | stays {c : Context} (hc : d.Owns c) : ComesOf d t op c
  | stopped {c : Context} (hc : d.Owns c) : ComesOf d t op { c with server := none }
  | made {config : Config} {store : Store} (h : store = d.store ∨ op = .install config true) :
      ComesOf d t op ⟨config, store, none⟩
  | started {c : Context} (hc : d.Owns c) {domain : UInt32} {registry : Registry}
      (hsite : (d.act t op).1.site = (c.start t d.site domain registry).2.1) :
      ComesOf d t op (c.start t d.site domain registry).1

theorem comesOf_stop {d : Deployment} {op : Operation} {c : Context} (hc : d.Owns c)
    (t : Timing) (domain : UInt32) : d.ComesOf t op (c.stop t d.site domain).1 := by
  rcases c.stop_context t d.site domain with heq | heq
  · rw [heq]
    exact .stays hc
  · rw [heq]
    exact .stopped hc

theorem comesOf_act {d : Deployment} {t : Timing} {op : Operation} {c' : Context}
    (h : (d.act t op).1.Owns c') : d.ComesOf t op c' := by
  cases op with
  | command c => exact .stays h
  | newContext name config =>
      simp only [act] at h
      split at h
      · exact .stays h
      · rename_i c hc
        rcases owns_setContext h with rfl | h
        · rw [Context.new_eq_ok hc]
          exact .made (.inl rfl)
        · exact .stays (owns_dropContext h)
  | dropContext name => exact .stays (owns_dropContext h)
  | start name domain registry =>
      cases hc : d.contexts.find? name with
      | none =>
          rw [act, withContext_none hc] at h
          exact .stays h
      | some c =>
          have hsite := congrArg Deployment.site (act_start hc t domain registry)
          rw [act_start hc t] at h
          rcases owns_setContext h with rfl | h
          · exact .started (.inl ⟨name, hc⟩) hsite
          · exact .stays h
  | stop name domain =>
      cases hc : d.contexts.find? name with
      | none =>
          rw [act, withContext_none hc] at h
          exact .stays h
      | some c =>
          rw [act_stop hc t] at h
          rcases owns_setContext h with rfl | h
          · exact comesOf_stop (.inl ⟨name, hc⟩) t domain
          · exact .stays h
  | install config ownFiles =>
      simp only [act, HostInterface.Bridge.install] at h
      cases hnew : Context.new config (if ownFiles then .folder config.stateDir else d.store) with
      | error e =>
          rw [hnew] at h
          exact .stays h
      | ok c =>
          rw [hnew] at h
          rcases h with h | h
          · exact .stays (.inl h)
          · cases h
            rw [Context.new_eq_ok hnew]
            refine .made ?_
            cases ownFiles with
            | true => exact .inr rfl
            | false => exact .inl rfl
  | startInstalled domain =>
      rcases h with h | h
      · exact .stays (.inl h)
      · simp only [act, answered, HostInterface.Bridge.start] at h
        split at h
        · exact .stays (.inr h)
        · rename_i c hc
          cases h
          refine .started (.inr hc) ?_
          simp only [act, answered, HostInterface.Bridge.start, hc]
  | stopInstalled domain =>
      rcases h with h | h
      · exact .stays (.inl h)
      · simp only [act, answered, HostInterface.Bridge.stop] at h
        split at h
        · exact .stays (.inr h)
        · rename_i c hc
          cases h
          exact comesOf_stop (.inr hc) t domain
  | shutdown =>
      rcases h with h | h
      · exact .stays (.inl h)
      · cases h
  | isRunning name domain => exact .stays (((Looks.isRunning name domain).sameContexts d t).owns h)
  | report name => exact .stays (((Looks.report name).sameContexts d t).owns h)
  | holdGraph name => exact .stays (((Looks.holdGraph name).sameContexts d t).owns h)
  | heldGraph name => exact .stays (((Looks.heldGraph name).sameContexts d t).owns h)
  | bind category function context =>
      exact .stays (((Looks.bind category function context).sameContexts d t).owns h)
  | installedIsRunning domain =>
      exact .stays (((Looks.installedIsRunning domain).sameContexts d t).owns h)
  | initLogging => exact .stays ((Looks.initLogging.sameContexts d t).owns h)

theorem Step.paces {d d' : Deployment} (h : Step d d') : Site.Paces d.site d'.site := by
  cases h with
  | act t op => exact paces_act d t op
  | deliver h => exact .single (.deliver h)

theorem Run.paces {d d' : Deployment} (h : Run d d') : Site.Paces d.site d'.site := by
  induction h with
  | refl => exact .refl
  | tail _ hstep ih => exact ih.trans hstep.paces

theorem Run.moves {d d' : Deployment} (h : Run d d') : Site.Moves d.site d'.site :=
  (Run.paces h).moves

theorem Reachable.sound {d : Deployment} (h : d.Reachable) : d.site.Sound := by
  obtain ⟨storage, processes, store, hrun⟩ := h
  exact (Run.moves hrun).sound (Site.sound_new storage processes)

theorem Reachable.run {d d' : Deployment} (h : d.Reachable) (hrun : Run d d') : d'.Reachable := by
  obtain ⟨storage, processes, store, hbefore⟩ := h
  exact ⟨storage, processes, store, hbefore.trans hrun⟩

/-- What holds of a server as it is created, and is kept by every move, holds of every server
that a context holds. -/
theorem Reachable.holds {P : Config → Running → Site → Prop}
    (hmove : ∀ {config running} {s s' : Site},
      Site.Move s s' → s.Sound → P config running s → P config running s')
    (hlaunch : ∀ {s : Site} (config : Config) (domain : UInt32) (registry : Registry), s.Sound →
      s.fabric.failNextCreate = false →
      P config ⟨domain, s.fabric.nextHandle⟩ (s.create domain config.serverQos.profile
        (.discovery (.new registry (some (.new config.includeInternals))))).1)
    {d : Deployment} (hd : d.Reachable) {c : Context} (hc : d.Owns c) {running : Running}
    (hr : c.server = some running) : P c.config running d.site := by
  obtain ⟨storage, processes, store, hrun⟩ := hd
  have hsound : ∀ {d' : Deployment}, Run (new (Site.new storage processes) store) d' →
      d'.site.Sound := fun hrun => Reachable.sound ⟨storage, processes, store, hrun⟩
  -- Whoever holds a server held it before, or has just started it.
  induction hrun generalizing c running with
  | refl =>
      rcases hc with ⟨name, hc⟩ | hc
      · simp [new] at hc
      · simp [new, HostInterface.Bridge.initial] at hc
  | @tail d₁ d₂ hrun hstep ih =>
      have hkeep : ∀ {s s' : Site} {config running}, Site.Moves s s' → s.Sound →
          P config running s → P config running s' :=
        fun hrow hs hP => hrow.invariant hmove hs hP
      cases hstep with
      | deliver h =>
          have hmoves := (Site.steps_of_step? h).moves
          exact hkeep hmoves (hsound hrun) (ih hc hr)
      | act t op =>
          cases comesOf_act hc with
          | stays hc => exact hkeep (moves_act d₁ t op) (hsound hrun) (ih hc hr)
          | stopped => simp at hr
          | made => simp at hr
          | @started c₁ hc₁ domain registry hsite =>
              have hready : (c₁.readied t d₁.site domain registry).Sound :=
                (c₁.paces_readied t d₁.site domain registry).moves.sound (hsound hrun)
              have hlaunched : (c₁.launched t d₁.site domain registry).Sound :=
                (c₁.paces_launched t d₁.site domain registry).moves.sound (hsound hrun)
              cases hf : (c₁.readied t d₁.site domain registry).fabric.failNextCreate with
              | true => simp [Context.start_of_refused hf] at hr
              | false =>
                  have hP := hlaunch c₁.config domain registry hready hf
                  have hend := hkeep (c₁.paces_start_of_launched t d₁.site domain registry).moves
                    hlaunched hP
                  rw [← hsite] at hend
                  rw [Context.start_of_accepted hf] at hr ⊢
                  cases hr
                  exact hend

end Deployment

end Rendezvous
