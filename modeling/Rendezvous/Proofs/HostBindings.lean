import Rendezvous.Proofs.Calls

/-!
# What hosts have bound

A host binds its functions ahead of time, and each start takes what is bound by then. What is
bound to a category is what the last successful binding of it has left, or nothing after a
shutdown. Main statement: a server that is started through the installed context calls, upon
whatever is delivered to it, what was bound when it was started; nothing that is asked later
changes that.
-/

namespace Rendezvous

open HostInterface

namespace Registry

/-- The registry that binds to each category what a function says. -/
def of (b : Category → Option Binding) : Registry :=
  ⟨b .participantDiscovered, b .participantRemoved, b .readerDiscovered, b .readerRemoved,
    b .writerDiscovered, b .writerRemoved⟩

@[simp] theorem binding_of (b : Category → Option Binding) (c : Category) :
    (of b).binding c = b c := by
  cases c <;> rfl

theorem eq_of_binding {r : Registry} {b : Category → Option Binding}
    (h : ∀ c, r.binding c = b c) : r = of b :=
  congrArg of (funext h)

end Registry

namespace Deployment

/-! ## What is bound -/

/-- What an operation that was answered so leaves bound to a category: a function with the
context that it is handed, or nothing. Only a binding that succeeds and a shutdown change it. -/
def leavesBound? (category : Category) : Operation × Answer → Option (Option (Nat × String))
  | (.bind c function context, .status .ok) =>
      if c = category then some (do return (← function, ← context)) else none
  | (.shutdown, _) => some none
  | _ => none

/-- What is bound to a category after a row of operations: what the last one has left that
changed it. -/
def boundAfter (past : List (Operation × Answer)) (category : Category) : Option (Nat × String) :=
  (past.reverse.findSome? (leavesBound? category)).join

def hostBinding : Nat × String → Binding
  | (function, context) => ⟨.foreign function, context⟩

/-- What is bound after a row of operations, as the registry that a start takes. -/
def registryAfter (past : List (Operation × Answer)) : Registry :=
  .of fun category => (boundAfter past category).map hostBinding

theorem boundAfter_concat (past : List (Operation × Answer)) (x : Operation × Answer)
    (category : Category) :
    boundAfter (past ++ [x]) category =
      (leavesBound? category x).getD (boundAfter past category) := by
  rw [boundAfter, List.reverse_concat, List.findSome?_cons]
  cases leavesBound? category x <;> rfl

theorem leavesBound?_eq_some {category : Category} {x : Operation × Answer}
    {bound : Option (Nat × String)} (h : leavesBound? category x = some bound) :
    bound = none ∨ ∃ function context, x = (.bind category function context, .status .ok) := by
  unfold leavesBound? at h
  split at h
  · rename_i c function context
    split at h
    · rename_i hc
      exact .inr ⟨function, context, by rw [hc]⟩
    · cases h
  · cases h
    exact .inl rfl
  · cases h

/-- After a shutdown nothing is bound to a category until a binding of it succeeds. -/
theorem boundAfter_shutdown {category : Category} (before since : List (Operation × Answer))
    (answer : Answer)
    (hnone : ∀ function context, (.bind category function context, .status .ok) ∉ since) :
    boundAfter (before ++ (.shutdown, answer) :: since) category = none := by
  rw [boundAfter, List.reverse_append, List.reverse_cons, List.append_assoc,
    List.findSome?_append]
  -- Of what came since, only a further shutdown can have changed what is bound.
  cases hfind : since.reverse.findSome? (leavesBound? category) with
  | none => rfl
  | some bound =>
      obtain ⟨x, hx, hleaves⟩ := List.exists_of_findSome?_eq_some hfind
      rcases leavesBound?_eq_some hleaves with rfl | ⟨function, context, rfl⟩
      · rfl
      · exact absurd (List.mem_reverse.1 hx) (hnone function context)

def hostCall (bound : Category → Option (Nat × String)) (d : Delivery) : Option Sighting := do
  let e ← d.notification.event?
  let (function, context) ← bound e.category
  return .calledForeign d.target e.category function context (.of e.record)

theorem callUpon_registryAfter (past : List (Operation × Answer)) :
    (registryAfter past).callUpon = hostCall (boundAfter past) := by
  funext d
  simp only [Registry.callUpon, hostCall, registryAfter, Registry.binding_of]
  cases d.notification.event? with
  | none => rfl
  | some e =>
      simp only [Option.bind_eq_bind, Option.bind_some]
      cases boundAfter past e.category <;> rfl

theorem binding_bind (b : Bridge) (c category : Category) (function : Option Nat)
    (context : Option String) :
    (b.bind c function context).1.pending.binding category =
      ((leavesBound? category (.bind c function context,
        .status (b.bind c function context).2)).map (·.map hostBinding)).getD
          (b.pending.binding category) := by
  have hput (new : Option Binding) : (b.pending.put c new).binding category =
      if c = category then new else b.pending.binding category := by
    rw [Registry.binding_put]
    exact if_congr eq_comm rfl rfl
  cases function with
  | none =>
      refine (hput none).trans ?_
      simp only [leavesBound?, Bridge.bind, Registry.set, Binding.ofParts, Option.map_none,
        Except.map]
      split <;> rfl
  | some function =>
      cases context with
      | none => rfl
      | some context =>
          refine (hput (some ⟨.foreign function, context⟩)).trans ?_
          simp only [leavesBound?, Bridge.bind, Registry.set, Binding.ofParts, Option.map_some,
            Except.map]
          split <;> rfl

theorem bridge_dropContext (d : Deployment) (t : Timing) (name : String) :
    (d.dropContext t name).bridge = d.bridge := by
  unfold dropContext
  split <;> rfl

/-- What is bound for the starts to come changes with a binding or a shutdown only. -/
theorem pending_act {op : Operation} (hbind : ∀ c function context, op ≠ .bind c function context)
    (hshutdown : op ≠ .shutdown) (d : Deployment) (t : Timing) :
    (d.act t op).1.bridge.pending = d.bridge.pending := by
  cases op with
  | bind c function context => exact absurd rfl (hbind c function context)
  | shutdown => exact absurd rfl hshutdown
  | install config ownFiles =>
      simp only [act, Bridge.install]
      cases Context.new config (if ownFiles then .folder config.stateDir else d.store) <;> rfl
  | startInstalled domain =>
      simp only [act, answered, Bridge.start]
      split <;> rfl
  | stopInstalled domain =>
      simp only [act, answered, Bridge.stop]
      split <;> rfl
  | newContext name config =>
      simp only [act]
      split
      · rfl
      · exact congrArg Bridge.pending (bridge_dropContext d t name)
  | dropContext name => exact congrArg Bridge.pending (bridge_dropContext d t name)
  | start name domain registry =>
      cases hc : d.contexts.find? name with
      | none => rw [act, withContext_none hc]
      | some c =>
          rw [act_start hc t]
          rfl
  | stop name domain =>
      cases hc : d.contexts.find? name with
      | none => rw [act, withContext_none hc]
      | some c =>
          rw [act_stop hc t]
          rfl
  | holdGraph name =>
      simp only [act, withContext]
      split
      · rfl
      · split <;> rfl
  | isRunning name domain =>
      simp only [act, withContext]
      split <;> rfl
  | report name =>
      simp only [act, withContext]
      split <;> rfl
  | heldGraph name =>
      simp only [act]
      split <;> rfl
  | command c => rfl
  | installedIsRunning domain => rfl
  | initLogging => rfl

theorem binding_act (d : Deployment) (t : Timing) (op : Operation) (category : Category) :
    (d.act t op).1.bridge.pending.binding category =
      ((leavesBound? category (op, (d.act t op).2)).map (·.map hostBinding)).getD
        (d.bridge.pending.binding category) := by
  cases op with
  | bind c function context => exact binding_bind d.bridge c category function context
  | shutdown => exact Registry.binding_empty category
  | _ => exact congrArg (Registry.binding · category) (pending_act (by nofun) (by nofun) d t)

/-! ## Operations with their answers -/

/-- A row of operations, each with its answer and at a timing of its own, and of deliveries in
between; what an operation does may depend on the row before it. -/
inductive Transcript
    (does : List (Operation × Answer) → Deployment → Timing → Operation → Deployment × Answer)
    (d₀ : Deployment) : List (Operation × Answer) → List Timing → Deployment → Prop
  | nil : Transcript does d₀ [] [] d₀
  | act {past : List (Operation × Answer)} {ts : List Timing} {d : Deployment}
      (h : Transcript does d₀ past ts d) (t : Timing) (op : Operation) :
      Transcript does d₀ (past ++ [(op, (does past d t op).2)]) (ts ++ [t]) (does past d t op).1
  | deliver {past : List (Operation × Answer)} {ts : List Timing} {d : Deployment} {site : Site}
      (h : Transcript does d₀ past ts d) (hstep : d.site.step? = some site) :
      Transcript does d₀ past ts { d with site }

/-- A transcript of what is asked of a deployment, the installed context included. -/
abbrev Transcribes (d₀ : Deployment) (past : List (Operation × Answer)) (ts : List Timing)
    (d : Deployment) : Prop :=
  Transcript (fun _ => act) d₀ past ts d

theorem Transcript.run {d₀ d : Deployment} {past : List (Operation × Answer)} {ts : List Timing}
    (h : Transcribes d₀ past ts d) : Run d₀ d := by
  induction h with
  | nil => exact .refl
  | act _ t op ih => exact ih.tail (.act _ t op)
  | deliver _ hstep ih => exact ih.tail (.deliver hstep)

/-- What is bound for the starts to come is what the operations so far have left. -/
theorem Transcript.pending_eq {site : Site} {store : Store} {d : Deployment}
    {past : List (Operation × Answer)} {ts : List Timing}
    (h : Transcribes (new site store) past ts d) :
    d.bridge.pending = registryAfter past := by
  refine Registry.eq_of_binding fun category => ?_
  induction h with
  | nil => exact Registry.binding_empty category
  | @act past _ d _ t op ih =>
      rw [binding_act, boundAfter_concat, ih]
      cases leavesBound? category (op, (d.act t op).2) <;> rfl
  | deliver _ _ ih => exact ih

/-! ## What is called -/

/-- A server that is started through the installed context calls what was bound by then. -/
theorem Transcript.calls_of_start {storage : Storage} {processes : ProcessTable} {store : Store}
    {past : List (Operation × Answer)} {ts : List Timing} {d : Deployment}
    (h : Transcribes (new (.new storage processes) store) past ts d) {t : Timing}
    {domain : UInt32} (hok : (d.act t (.startInstalled domain)).2 = .status .ok) :
    ∃ c k, (d.act t (.startInstalled domain)).1.bridge.installed = some c ∧
      c.server = some ⟨domain, k⟩ ∧ ¬ d.site.fabric.Issued k ∧
      ∀ d', Run (d.act t (.startInstalled domain)).1 d' →
        d'.site.callsFor k = (d'.site.received k).filterMap (hostCall (boundAfter past)) := by
  have hreachable : d.Reachable := ⟨storage, processes, store, h.run⟩
  cases hc : d.bridge.installed with
  | none =>
      simp only [Deployment.act, answered, Bridge.start, hc] at hok
      cases hok
  | some c =>
      rcases hstart : c.start t d.site domain d.bridge.pending with ⟨c', site, result⟩
      simp only [Deployment.act, answered, Bridge.start, hc, hstart] at hok ⊢
      cases result with
      | error e => cases e <;> cases hok
      | ok k =>
          obtain ⟨hserver, hnew, hobliges⟩ := hreachable.obliges_start hstart
          refine ⟨c', k, rfl, hserver, hnew, fun d' hrun => ?_⟩
          have hcalls := (Site.Moves.obliges (Run.moves hrun) hobliges).calls
          rw [hcalls, h.pending_eq, callUpon_registryAfter]

end Deployment

end Rendezvous
