import Rendezvous.Proofs.HostBindings

/-!
# Hosts that drive the installed context

A host that drives the installed context gets the same as one that drives a context of its
own and hands it, at each start, what is bound by then. Main statement: operations and
deliveries in any order lead to the same site and to the same answers either way.
-/

namespace Rendezvous

open HostInterface

def Operation.name? : Operation → Option String
  | .newContext name _ => some name
  | .dropContext name => some name
  | .start name _ _ => some name
  | .stop name _ => some name
  | .isRunning name _ => some name
  | .report name => some name
  | .holdGraph name => some name
  | .heldGraph name => some name
  | _ => none

def Answer.asStatus : Answer → Answer
  | .started _ => .status .ok
  | .stopped _ => .status .ok
  | .failed e => .status (.ofError e)
  | .unknownContext => .status .notInitialized
  | answer => answer

/-- What a host is told for what a context answers that is asked whether a server runs. -/
def Answer.asTruth : Answer → Answer
  | .unknownContext => .truth false
  | answer => answer

/-- What a host is told for what is answered to one who creates a context. -/
def Answer.asInstalled : Answer → Answer
  | .created _ => .done
  | answer => answer

namespace Deployment

def createIn (e : Deployment) (t : Timing) (store : Store) (name : String) (config : Config) :
    Deployment × Answer :=
  let made := { e with store }.act t (.newContext name config)
  ({ made.1 with store := e.store }, made.2)

/-- What is asked of the installed context, asked of the context of a name that is handed the
bindings of a registry. A function is bound together with a context, or not at all. -/
def direct (e : Deployment) (host : String) (registry : Registry) (t : Timing) :
    Operation → Deployment × Answer
  | .install config ownFiles =>
      (e.createIn t (if ownFiles then .folder config.stateDir else e.store) host config).map id
        Answer.asInstalled
  | .bind _ function context =>
      (e, .status (if function.isSome && context.isNone then .contractViolation else .ok))
  | .startInstalled domain => (e.act t (.start host domain registry)).map id Answer.asStatus
  | .stopInstalled domain => (e.act t (.stop host domain)).map id Answer.asStatus
  | .installedIsRunning domain => (e.act t (.isRunning host domain)).map id Answer.asTruth
  | .shutdown =>
      ((e.act t (.dropContext host)).1,
        .status (if e.contexts.contains host then .ok else .notInitialized))
  | op => e.act t op

/-- A deployment with the installed context, if there is one, under a name instead. -/
def unbridged (d : Deployment) (host : String) : Deployment :=
  { d with contexts := d.contexts.alter host fun _ => d.bridge.installed, bridge := .initial }

variable {d : Deployment} {host name : String}

theorem find?_unbridged (d : Deployment) (host : String) :
    (d.unbridged host).contexts.find? host = d.bridge.installed :=
  (OrderedMap.find?_alter _ _ _ _).trans (if_pos rfl)

theorem find?_unbridged_of_ne (hne : name ≠ host) (d : Deployment) :
    (d.unbridged host).contexts.find? name = d.contexts.find? name :=
  (OrderedMap.find?_alter _ _ _ _).trans (if_neg hne)

/-- A context put under the name of the host takes the place of the installed one. -/
theorem setContext_unbridged (d : Deployment) (host : String) (site : Site) (c : Context)
    (pending : Registry) :
    ({ d.unbridged host with site }.setContext host c) =
      ({ d with site, bridge := ⟨some c, pending⟩ } : Deployment).unbridged host := by
  simp only [setContext, unbridged, OrderedMap.insert, OrderedMap.alter_alter_const]

theorem setContext_unbridged_of_ne (hne : name ≠ host) (d : Deployment) (site : Site)
    (c : Context) :
    ({ d.unbridged host with site }.setContext name c) =
      ({ d with site }.setContext name c).unbridged host := by
  simp only [setContext, unbridged, OrderedMap.insert, OrderedMap.alter_comm hne.symm]

theorem dropContext_unbridged (d : Deployment) (host : String) (t : Timing) (pending : Registry) :
    (d.unbridged host).dropContext t host =
      ({ d with site := d.bridge.dropInstalled t d.site, bridge := ⟨none, pending⟩ } :
        Deployment).unbridged host := by
  unfold dropContext
  rw [find?_unbridged]
  cases hc : d.bridge.installed with
  | none => simp only [unbridged, Bridge.dropInstalled, hc]
  | some c =>
      simp only [unbridged, Bridge.dropInstalled, hc, OrderedMap.erase,
        OrderedMap.alter_alter_const]

theorem replaceContext_unbridged (d : Deployment) (host : String) (t : Timing) (c : Context) :
    ((d.unbridged host).dropContext t host).setContext host c =
      ({ d with site := d.bridge.dropInstalled t d.site,
                bridge := ⟨some c, d.bridge.pending⟩ } : Deployment).unbridged host := by
  rw [dropContext_unbridged d host t d.bridge.pending]
  simp only [setContext, unbridged, OrderedMap.insert, OrderedMap.alter_alter_const]

theorem dropContext_unbridged_of_ne (hne : name ≠ host) (d : Deployment) (t : Timing) :
    (d.unbridged host).dropContext t name = (d.dropContext t name).unbridged host := by
  unfold dropContext
  rw [find?_unbridged_of_ne hne]
  cases d.contexts.find? name with
  | none => rfl
  | some c => simp only [unbridged, OrderedMap.erase, OrderedMap.alter_comm hne.symm]

/-! ### Operation by operation -/

theorem direct_install (d : Deployment) (host : String) (registry : Registry) (t : Timing)
    (config : Config) (ownFiles : Bool) :
    (d.unbridged host).direct host registry t (.install config ownFiles) =
      ((d.act t (.install config ownFiles)).1.unbridged host,
        (d.act t (.install config ownFiles)).2) := by
  have hstore : (d.unbridged host).store = d.store := rfl
  simp only [direct, createIn, act, Bridge.install, hstore]
  generalize (if ownFiles then .folder config.stateDir else d.store) = store
  cases Context.new config store with
  | error e => rfl
  | ok c =>
      have hmade := replaceContext_unbridged { d with store } host t c
      exact Prod.ext (congrArg (fun e : Deployment => { e with store := d.store }) hmade) rfl

theorem direct_start (d : Deployment) (host : String) (t : Timing) (domain : UInt32) :
    (d.unbridged host).direct host d.bridge.pending t (.startInstalled domain) =
      ((d.act t (.startInstalled domain)).1.unbridged host,
        (d.act t (.startInstalled domain)).2) := by
  have hsite : (d.unbridged host).site = d.site := rfl
  simp only [direct, act, withContext, find?_unbridged, Bridge.start]
  cases hc : d.bridge.installed with
  | none => rfl
  | some c =>
      rcases hstart : c.start t d.site domain d.bridge.pending with ⟨c', site, result⟩
      simp only [hsite, hstart, answered]
      cases result <;> exact Prod.ext (setContext_unbridged d host site c' _) rfl

theorem direct_stop (d : Deployment) (host : String) (registry : Registry) (t : Timing)
    (domain : UInt32) :
    (d.unbridged host).direct host registry t (.stopInstalled domain) =
      ((d.act t (.stopInstalled domain)).1.unbridged host,
        (d.act t (.stopInstalled domain)).2) := by
  have hsite : (d.unbridged host).site = d.site := rfl
  simp only [direct, act, withContext, find?_unbridged, Bridge.stop]
  cases hc : d.bridge.installed with
  | none => rfl
  | some c =>
      rcases hstop : c.stop t d.site domain with ⟨c', site, result⟩
      simp only [hsite, hstop, answered]
      cases result <;> exact Prod.ext (setContext_unbridged d host site c' _) rfl

theorem direct_isRunning (d : Deployment) (host : String) (registry : Registry) (t : Timing)
    (domain : UInt32) :
    (d.unbridged host).direct host registry t (.installedIsRunning domain) =
      ((d.act t (.installedIsRunning domain)).1.unbridged host,
        (d.act t (.installedIsRunning domain)).2) := by
  simp only [direct, act, withContext, find?_unbridged, Bridge.isRunning]
  cases hc : d.bridge.installed <;> rfl

theorem direct_shutdown (d : Deployment) (host : String) (registry : Registry) (t : Timing) :
    (d.unbridged host).direct host registry t .shutdown =
      ((d.act t .shutdown).1.unbridged host, (d.act t .shutdown).2) := by
  simp only [direct, act, answered, Bridge.shutdown, OrderedMap.contains, find?_unbridged]
  refine Prod.ext (dropContext_unbridged d host t .empty) ?_
  cases hc : d.bridge.installed <;> rfl

theorem direct_bind (d : Deployment) (host : String) (registry : Registry) (t : Timing)
    (c : Category) (function : Option Nat) (context : Option String) :
    (d.unbridged host).direct host registry t (.bind c function context) =
      ((d.act t (.bind c function context)).1.unbridged host,
        (d.act t (.bind c function context)).2) := by
  cases function with
  | none => rfl
  | some function => cases context <;> rfl

/-- What is asked of a context under another name comes to the same. -/
theorem act_unbridged (d : Deployment) (t : Timing) {op : Operation} (hop : op.name? = some name)
    (hne : name ≠ host) :
    (d.unbridged host).act t op = ((d.act t op).1.unbridged host, (d.act t op).2) := by
  have hfind := find?_unbridged_of_ne hne d
  have hsite : (d.unbridged host).site = d.site := rfl
  have hstore : (d.unbridged host).store = d.store := rfl
  cases op with
  | newContext name' config =>
      cases hop
      simp only [act, hstore]
      cases Context.new config d.store with
      | error e => rfl
      | ok c =>
          rw [dropContext_unbridged_of_ne hne]
          exact Prod.ext (setContext_unbridged_of_ne hne (d.dropContext t name) _ c) rfl
  | dropContext name' =>
      cases hop
      exact Prod.ext (dropContext_unbridged_of_ne hne d t) rfl
  | start name' domain registry =>
      cases hop
      simp only [act, withContext, hfind, hsite]
      cases d.contexts.find? name with
      | none => rfl
      | some c =>
          rcases hstart : c.start t d.site domain registry with ⟨c', site, result⟩
          simp only [hstart]
          cases result <;> exact Prod.ext (setContext_unbridged_of_ne hne d site c') rfl
  | stop name' domain =>
      cases hop
      simp only [act, withContext, hfind, hsite]
      cases d.contexts.find? name with
      | none => rfl
      | some c =>
          rcases hstop : c.stop t d.site domain with ⟨c', site, result⟩
          simp only [hstop]
          cases result <;> exact Prod.ext (setContext_unbridged_of_ne hne d site c') rfl
  | isRunning name' domain =>
      cases hop
      simp only [act, withContext, hfind, hsite]
      cases d.contexts.find? name <;> rfl
  | report name' =>
      cases hop
      simp only [act, withContext, hfind]
      cases d.contexts.find? name <;> rfl
  | holdGraph name' =>
      cases hop
      simp only [act, withContext, hfind]
      cases d.contexts.find? name with
      | none => rfl
      | some c =>
          simp only
          cases c.server <;> rfl
  | heldGraph name' =>
      cases hop
      have hheld : (d.unbridged host).held = d.held := rfl
      simp only [act, hheld, hfind]
      cases d.held.find? name <;> rfl
  | _ => cases hop

theorem direct_of_name {op : Operation} (h : op.name? = some name) (e : Deployment)
    (host : String) (registry : Registry) (t : Timing) :
    e.direct host registry t op = e.act t op := by
  cases op with
  | newContext | dropContext | start | stop | isRunning | report | holdGraph | heldGraph => rfl
  | _ => cases h

/-- Whatever is done comes to the same through the installed context as through one under a name
that nothing else uses. -/
theorem direct_unbridged (d : Deployment) (t : Timing) {op : Operation}
    (hop : op.name? ≠ some host) :
    (d.unbridged host).direct host d.bridge.pending t op =
      ((d.act t op).1.unbridged host, (d.act t op).2) := by
  cases hname : op.name? with
  | some name =>
      have hne : name ≠ host := fun heq => hop (heq ▸ hname)
      rw [direct_of_name hname]
      exact act_unbridged d t hname hne
  | none =>
      cases op with
      | install config ownFiles => exact direct_install d host _ t config ownFiles
      | bind c function context => exact direct_bind d host _ t c function context
      | startInstalled domain => exact direct_start d host t domain
      | stopInstalled domain => exact direct_stop d host _ t domain
      | installedIsRunning domain => exact direct_isRunning d host _ t domain
      | shutdown => exact direct_shutdown d host _ t
      | command c => rfl
      | initLogging => rfl
      | _ => cases hname

/-! ## Whole transcripts -/

section Transcripts

variable {site : Site} {store : Store} {past : List (Operation × Answer)} {ts : List Timing}

/-- Whether operations are answered so when what is asked of the installed context is asked of the
context of a name, which is handed what the operations before have left bound. -/
abbrev TranscribesDirect (host : String) (d₀ : Deployment) (past : List (Operation × Answer))
    (ts : List Timing) (e : Deployment) : Prop :=
  Transcript (fun past e => e.direct host (registryAfter past)) d₀ past ts e

theorem Transcript.direct (h : Transcribes (new site store) past ts d)
    (hhost : ∀ x ∈ past, x.1.name? ≠ some host) :
    TranscribesDirect host (new site store) past ts (d.unbridged host) := by
  induction h with
  | nil => exact .nil
  | @act past _ d h t op ih =>
      have hop : op.name? ≠ some host := hhost _ List.mem_concat_self
      have hsame := direct_unbridged d t hop
      have hnext := (ih fun x hx => hhost x (List.mem_append_left _ hx)).act t op
      -- What the installed context would be handed is what the operations before have left.
      rw [h.pending_eq] at hsame
      rw [hsame] at hnext
      exact hnext
  | deliver _ hstep ih => exact (ih hhost).deliver hstep

end Transcripts

/-- Along every transcript the site, the store and the answers are those that a context under a
name of its own leads to at the same timings, statuses included. A server started through the
installed context calls what the last successful binding of each category had left by its start,
whatever is asked later; and nothing is bound after a shutdown until a binding succeeds. -/
theorem Transcript.simulates_direct {storage : Storage} {processes : ProcessTable} {store : Store}
    {past : List (Operation × Answer)} {ts : List Timing} {d : Deployment}
    (h : Transcribes (new (.new storage processes) store) past ts d) :
    (∀ host, (∀ x ∈ past, x.1.name? ≠ some host) →
      ∃ e, TranscribesDirect host (new (.new storage processes) store) past ts e ∧
        e.site = d.site ∧ e.store = d.store ∧ e.contexts.find? host = d.bridge.installed) ∧
    (∀ t domain, (d.act t (.startInstalled domain)).2 = .status .ok →
      ∃ c k, (d.act t (.startInstalled domain)).1.bridge.installed = some c ∧
        c.server = some ⟨domain, k⟩ ∧ ¬ d.site.fabric.Issued k ∧
        ∀ d', Run (d.act t (.startInstalled domain)).1 d' →
          d'.site.callsFor k = (d'.site.received k).filterMap (hostCall (boundAfter past))) ∧
    (∀ before answer since category, past = before ++ (.shutdown, answer) :: since →
      (∀ function context, (.bind category function context, .status .ok) ∉ since) →
      boundAfter past category = none) ∧
    Status.ok.code = 0 ∧ ∀ e, (Status.ofError e).code = e.code := by
  refine ⟨fun host hhost => ?_, fun _ _ hok => h.calls_of_start hok, ?_, rfl,
    Status.code_ofError⟩
  · exact ⟨d.unbridged host, h.direct hhost, rfl, rfl, find?_unbridged d host⟩
  · rintro before answer since category rfl hnone
    exact boundAfter_shutdown before since answer hnone

/-- A host that shuts down first of all, then binds a function and installs a context. -/
def hosted : Deployment :=
  (((new (.new .empty ⟨1, [], 0⟩) .memory).act .late .shutdown).1.act .prompt
    (.bind .participantDiscovered (some 7) (some "first"))).1.act .prompt
      (.install (Config.default (.ofString "state")) false) |>.1

def hostedPast : List (Operation × Answer) :=
  [(.shutdown, .status .notInitialized),
    (.bind .participantDiscovered (some 7) (some "first"), .status .ok),
    (.install (Config.default (.ofString "state")) false, .done)]

/-- The host starts a server, binds another function and clears the binding; a peer joins. -/
def rebound : Deployment :=
  (hosted.act .prompt (.startInstalled 1)).1.performAll
    [.bind .participantDiscovered (some 8) (some "second"),
      .bind .participantDiscovered none none,
      .command (.addPeer 1 ⟨Config.defaultRecoveryPrefix, none, []⟩)]

theorem transcribes_hosted :
    Transcribes (new (.new .empty ⟨1, [], 0⟩) .memory) hostedPast [.late, .prompt, .prompt] hosted :=
  ((Transcript.nil.act .late _).act .prompt _).act .prompt _

/-- The server calls what was bound when it was started, once, for the peer. -/
theorem first_binding_called :
    (∃ e, TranscribesDirect "host" (new (.new .empty ⟨1, [], 0⟩) .memory) hostedPast
      [.late, .prompt, .prompt] e ∧ e.site = hosted.site) ∧
    boundAfter hostedPast .participantRemoved = none ∧
    ∃ data, rebound.site.callsFor ⟨1⟩ =
      [.calledForeign ⟨1⟩ .participantDiscovered 7 "first" data] := by
  obtain ⟨hdirect, hcalls, hshutdown, _⟩ := transcribes_hosted.simulates_direct
  have hok : (hosted.act .prompt (.startInstalled 1)).2 = .status .ok := by cbv
  have hinstalled : (hosted.act .prompt (.startInstalled 1)).1.bridge.installed =
      some ⟨Config.default (.ofString "state"), .memory, some ⟨1, ⟨1⟩⟩⟩ := by cbv
  obtain ⟨e, he, hsite, _⟩ := hdirect "host" (by simp [hostedPast, Operation.name?])
  obtain ⟨c, k, hc, hk, _, hall⟩ := hcalls .prompt 1 hok
  refine ⟨⟨e, he, hsite⟩, hshutdown [] _ _ _ rfl (by simp), ?_⟩
  rw [hinstalled] at hc
  cases hc
  cases hk
  have hreceived : rebound.site.received ⟨1⟩ =
      [⟨⟨2⟩, ⟨1⟩, ⟨.discovered, .participant ⟨2⟩ ⟨Config.defaultRecoveryPrefix, none, []⟩⟩⟩] := by
    cbv
  rw [hall rebound (run_performAll _ _), hreceived]
  exact ⟨_, rfl⟩

end Deployment

end Rendezvous
