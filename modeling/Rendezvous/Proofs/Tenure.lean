import Rendezvous.Proofs.Recovery
import Rendezvous.Proofs.Tidings

/-!
# Servers of one context

A context sits under a name, or is the one installed, from its creation until it is given up
or replaced. A start closes the server that the context holds before it creates another one,
and closing cannot be refused. Main statement: of all the servers that a context has started
since it took its seat, only the one that it holds can take part in a domain; the one before
is gone for good when a new one is created, and whoever is told of it is told of its removal
before anything of the new one.
-/

namespace Rendezvous

namespace Site

theorem isEnabled_close (s : Site) (k : Handle) : (s.close k).fabric.isEnabled k = false := by
  unfold close
  split
  · rename_i hen
    obtain ⟨m, hm, hmen⟩ := Fabric.isEnabled_iff.1 hen
    rw [fabric_note, Fabric.close_of_enabled hm hmen, Fabric.isEnabled, Fabric.members_change,
      OrderedMap.find?_alter, if_pos rfl]
    rfl
  · rename_i hen
    exact Bool.not_eq_true _ ▸ hen

theorem isEnabled_delete_of_ok {s : Site} {k : Handle} (h : (s.delete k).2 = .ok ()) :
    (s.delete k).1.fabric.isEnabled k = false := by
  apply isEnabled_delete
  cases hd : s.fabric.delete k with
  | ok fabric => exact (Fabric.delete_eq_ok hd).1
  | error e =>
      simp only [delete, hd] at h
      cases h

end Site

namespace Context

open Site

variable {c : Context} {s : Site} {previous : Running}

/-- A server that is held is closed before another one is created. -/
theorem readied_of_held (hr : c.server = some previous)
    (hissued : s.fabric.Issued previous.handle) (t : Timing) (domain : UInt32)
    (registry : Registry) :
    (c.readied t s domain registry).fabric.isEnabled previous.handle = false := by
  let told := s.note (.noticed (.serverReplaced previous.handle previous.domain))
  let closed := t.pause .closed (told.close previous.handle)
  have hfabric : (c.readied t s domain registry).fabric =
      (t.pause .deleted (closed.delete previous.handle).1).fabric := by
    simp only [readied, discardHeld, hr, discard, fabric_note, fabric_clearRecord, closed, told]
  have hrest : Paces (told.close previous.handle)
      (t.pause .deleted (closed.delete previous.handle).1) :=
    (paces_pause t .closed _).trans (paces_delete t .deleted _ _)
  have hclosed : (told.close previous.handle).fabric.Issued previous.handle :=
    (Pace.close told previous.handle).moves.isLater.issued hissued
  rw [hfabric]
  exact hrest.moves.isLater.isEnabled_eq_false hclosed (isEnabled_close told previous.handle)

theorem isEnabled_start_of_held (hr : c.server = some previous)
    (hissued : s.fabric.Issued previous.handle) (t : Timing) (domain : UInt32)
    (registry : Registry) :
    (c.start t s domain registry).2.1.fabric.isEnabled previous.handle = false := by
  have hready := (c.paces_readied t s domain registry).moves.isLater
  have hrest : Paces (c.readied t s domain registry) (c.start t s domain registry).2.1 :=
    .head (.create _ domain _ (.discovery registry _))
      (c.paces_start_of_launched t s domain registry)
  exact hrest.moves.isLater.isEnabled_eq_false (hready.issued hissued)
    (readied_of_held hr hissued t domain registry)

/-- A stop leaves the context as it was, or without the server that it held, which is gone. -/
theorem stop_cases (c : Context) (t : Timing) (s : Site) (domain : UInt32) :
    ((c.stop t s domain).1 = c ∧ (c.stop t s domain).2.2 ≠ .ok .stopped) ∨
    ∃ running, c.server = some running ∧ (c.stop t s domain).1 = { c with server := none } ∧
      (s.fabric.Issued running.handle →
        (c.stop t s domain).2.1.fabric.isEnabled running.handle = false) := by
  cases hserver : c.serverOn? domain with
  | none =>
      left
      simp only [stop, hserver, recover]
      rcases s.create domain c.config.recoveryQos.profile
        (.recovery c.config.serverPrefix 0) with ⟨s', created⟩
      cases created <;> simp
  | some running =>
      have hheld : c.server = some running := (Option.filter_eq_some_iff.1 hserver).1
      rcases hdelete : s.delete running.handle with ⟨s', result⟩
      simp only [stop, hserver, hdelete]
      cases result with
      | error e =>
          left
          simp
      | ok _ =>
          right
          have hok : (s.delete running.handle).2 = .ok () := congrArg Prod.snd hdelete
          have hgone := isEnabled_delete_of_ok hok
          have hlater := (Pace.delete s running.handle).moves.isLater
          rw [hdelete] at hgone hlater
          refine ⟨running, hheld, rfl, fun hissued => ?_⟩
          rw [fabric_clearRecord, fabric_note]
          exact (paces_pause t .deleted s').moves.isLater.isEnabled_eq_false
            (hlater.issued hissued) hgone

end Context

namespace Deployment

/-! ## Seats -/

inductive Seat where
  | named (name : String)
  | installed
  deriving DecidableEq, Repr

def at? (d : Deployment) : Seat → Option Context
  | .named name => d.contexts.find? name
  | .installed => d.bridge.installed

theorem owns_of_at? {d : Deployment} {seat : Seat} {c : Context} (h : d.at? seat = some c) :
    d.Owns c := by
  cases seat with
  | named name => exact .inl ⟨name, h⟩
  | installed => exact .inr h

/-- Whether an operation puts a new context in a seat. -/
inductive Fills : Seat → Operation → Prop
  | create (name : String) {config : Config} (h : config.validate = .ok ()) :
      Fills (.named name) (.newContext name config)
  | install {config : Config} (h : config.validate = .ok ()) (ownFiles : Bool) :
      Fills .installed (.install config ownFiles)

inductive Clears : Seat → Operation → Prop
  | fill {seat : Seat} {op : Operation} (h : Fills seat op) : Clears seat op
  | drop (name : String) : Clears (.named name) (.dropContext name)
  | shutdown : Clears .installed .shutdown

/-- Whether an operation asks the context in a seat to start a server. -/
inductive AsksToStart (d : Deployment) : Seat → Operation → UInt32 → Registry → Prop
  | named (name : String) (domain : UInt32) (registry : Registry) :
      AsksToStart d (.named name) (.start name domain registry) domain registry
  | installed (domain : UInt32) :
      AsksToStart d .installed (.startInstalled domain) domain d.bridge.pending

theorem validate_of_new {config : Config} {store : Store} {c : Context}
    (h : Context.new config store = .ok c) : config.validate = .ok () := by
  simp only [Context.new] at h
  split at h
  · assumption
  · cases h

section Seats

variable {d : Deployment} {seat : Seat} {op : Operation} {c : Context} {domain : UInt32}
  {registry : Registry} {t : Timing}

theorem Fills.at?_act (h : Fills seat op) (d : Deployment) (t : Timing) :
    ∃ config store, (d.act t op).1.at? seat = some ⟨config, store, none⟩ := by
  cases h with
  | @create name config h =>
      refine ⟨config, d.store, ?_⟩
      simp only [act, new_of_validate h, at?, setContext, OrderedMap.find?_insert, if_true]
  | install h ownFiles =>
      simp only [act, HostInterface.Bridge.install, new_of_validate h]
      exact ⟨_, _, rfl⟩

theorem AsksToStart.act (h : d.AsksToStart seat op domain registry) (hc : d.at? seat = some c)
    (t : Timing) :
    (d.act t op).1.at? seat = some (c.start t d.site domain registry).1 ∧
      (d.act t op).1.site = (c.start t d.site domain registry).2.1 := by
  cases h with
  | named name =>
      rw [act_start hc t]
      simp only [at?, setContext, OrderedMap.find?_insert, if_true, and_self]
  | installed =>
      have hi : d.bridge.installed = some c := hc
      simp only [Deployment.act, answered, HostInterface.Bridge.start, hi, at?, and_self]

theorem at?_congr {d' : Deployment} (hcontexts : d'.contexts = d.contexts)
    (hinstalled : d'.bridge.installed = d.bridge.installed) (seat : Seat) :
    d'.at? seat = d.at? seat := by
  cases seat with
  | named name => exact congrArg (·.find? name) hcontexts
  | installed => exact hinstalled

theorem SameContexts.at?_eq {d' : Deployment} (h : SameContexts d d') (seat : Seat) :
    d'.at? seat = d.at? seat := at?_congr h.contexts h.installed seat

theorem at?_setContext (name : String) (c : Context) (seat : Seat) :
    (d.setContext name c).at? seat = if seat = .named name then some c else d.at? seat := by
  cases seat with
  | named name' => simp [at?, setContext]
  | installed => rfl

theorem at?_dropContext {name : String} (hne : seat ≠ .named name) :
    (d.dropContext t name).at? seat = d.at? seat := by
  unfold dropContext
  split
  · rfl
  · cases seat with
    | named name' =>
        have hname : name' ≠ name := by
          intro heq
          exact hne (congrArg Seat.named heq)
        exact (OrderedMap.find?_erase _ _ _).trans (if_neg hname)
    | installed => rfl

theorem at?_dropContext_self (d : Deployment) (t : Timing) (name : String) :
    (d.dropContext t name).at? (.named name) = none := by
  unfold dropContext
  split
  · assumption
  · exact (OrderedMap.find?_erase _ _ _).trans (if_pos rfl)

theorem AsksToStart.at?_act_of_none (h : d.AsksToStart seat op domain registry)
    (hnone : d.at? seat = none) : (d.act t op).1.at? seat = none := by
  cases h with
  | named name =>
      rw [Deployment.act, withContext_none hnone]
      exact hnone
  | installed =>
      have hi : d.bridge.installed = none := hnone
      simp only [Deployment.act, answered, HostInterface.Bridge.start, hi, at?]

/-- What sits somewhere stays as it is unless it is asked to start or to stop a server. -/
theorem at?_act (hstays : ¬ Clears seat op)
    (hnot : ∀ domain registry, ¬ d.AsksToStart seat op domain registry) :
    (d.act t op).1.at? seat = d.at? seat ∨
      ∃ c domain, d.AsksToStop op c domain ∧ d.at? seat = some c ∧
        (d.act t op).1.at? seat = some (c.stop t d.site domain).1 := by
  have hsame : ∀ {d'}, SameContexts d d' → d'.at? seat = d.at? seat := fun h => h.at?_eq seat
  cases op with
  | command command => exact .inl (at?_congr rfl rfl seat)
  | newContext name config =>
      left
      simp only [act]
      split
      · rfl
      · rename_i c' hnew
        have hne : seat ≠ .named name := by
          intro heq
          rw [heq] at hstays
          exact hstays (.fill (.create name (validate_of_new hnew)))
        rw [at?_setContext, if_neg hne, at?_dropContext hne]
  | dropContext name =>
      left
      apply at?_dropContext
      intro heq
      rw [heq] at hstays
      exact hstays (.drop name)
  | start name domain registry =>
      left
      have hne : seat ≠ .named name := by
        intro heq
        rw [heq] at hnot
        exact hnot _ _ (.named name domain registry)
      cases hfind : d.contexts.find? name with
      | none => rw [act, withContext_none hfind]
      | some c' =>
          rw [act_start hfind t, at?_setContext, if_neg hne]
          exact at?_congr rfl rfl seat
  | stop name domain =>
      cases hfind : d.contexts.find? name with
      | none =>
          left
          rw [act, withContext_none hfind]
      | some c =>
          rw [act_stop hfind t, at?_setContext]
          by_cases hseat : seat = .named name
          · right
            rw [hseat]
            exact ⟨c, domain, .inl ⟨name, rfl, hfind⟩, hfind, if_pos rfl⟩
          · left
            rw [if_neg hseat]
            exact at?_congr rfl rfl seat
  | install config ownFiles =>
      left
      simp only [act, HostInterface.Bridge.install]
      cases hnew : Context.new config (if ownFiles then .folder config.stateDir else d.store) with
      | error e => exact at?_congr rfl rfl seat
      | ok c' =>
          cases seat with
          | named name => rfl
          | installed => exact absurd (.fill (.install (validate_of_new hnew) ownFiles)) hstays
  | startInstalled domain =>
      left
      cases seat with
      | named name => rfl
      | installed => exact absurd (.installed domain) (hnot _ _)
  | stopInstalled domain =>
      cases seat with
      | named name => exact .inl rfl
      | installed =>
          simp only [act, answered, HostInterface.Bridge.stop, at?]
          cases hi : d.bridge.installed with
          | none => exact .inl hi
          | some c => exact .inr ⟨c, domain, .inr ⟨rfl, hi⟩, rfl, rfl⟩
  | shutdown =>
      left
      cases seat with
      | named name => rfl
      | installed => exact absurd .shutdown hstays
  | isRunning name domain => exact .inl (hsame ((Looks.isRunning name domain).sameContexts d t))
  | report name => exact .inl (hsame ((Looks.report name).sameContexts d t))
  | holdGraph name => exact .inl (hsame ((Looks.holdGraph name).sameContexts d t))
  | heldGraph name => exact .inl (hsame ((Looks.heldGraph name).sameContexts d t))
  | bind category function context =>
      exact .inl (hsame ((Looks.bind category function context).sameContexts d t))
  | installedIsRunning domain =>
      exact .inl (hsame ((Looks.installedIsRunning domain).sameContexts d t))
  | initLogging => exact .inl (hsame (Looks.initLogging.sameContexts d t))

end Seats

/-! ## Tenures -/

/-- How a context comes to sit where it does, with the servers that it has started since it was
created, the latest last. -/
inductive Tenure (seat : Seat) : Deployment → List Handle → Prop
  | take {d : Deployment} {op : Operation} (hd : d.Reachable) (h : Fills seat op) (t : Timing) :
      Tenure seat (d.act t op).1 []
  | start {d : Deployment} {started : List Handle} {op : Operation} {c : Context}
      {domain : UInt32} {registry : Registry} (h : Tenure seat d started)
      (hc : d.at? seat = some c) (hasks : d.AsksToStart seat op domain registry) (t : Timing) :
      Tenure seat (d.act t op).1
        (started ++ (c.start t d.site domain registry).2.2.toOption.toList)
  | act {d : Deployment} {started : List Handle} {op : Operation} (h : Tenure seat d started)
      (hstays : ¬ Clears seat op)
      (hnot : ∀ domain registry, ¬ d.AsksToStart seat op domain registry) (t : Timing) :
      Tenure seat (d.act t op).1 started
  | deliver {d : Deployment} {started : List Handle} {site : Site} (h : Tenure seat d started)
      (hstep : d.site.step? = some site) : Tenure seat { d with site } started

/-- Whether a context holds the one server of some that can take part in its domain. -/
def Holds (d : Deployment) (c : Context) (started : List Handle) : Prop :=
  ∀ k ∈ started, d.site.fabric.Issued k ∧
    (d.site.fabric.isEnabled k = true → c.server.map (·.handle) = some k)

section Tenures

variable {d d' : Deployment} {seat : Seat} {op : Operation} {t : Timing} {c c' : Context}
  {started : List Handle} {domain : UInt32} {registry : Registry}

theorem Tenure.reachable (h : Tenure seat d started) : d.Reachable := by
  induction h with
  | @take d op hd _ t => exact hd.run (.single (.act d t op))
  | @start d _ op _ _ _ _ _ _ t ih => exact ih.run (.single (.act d t op))
  | @act d _ op _ _ _ t ih => exact ih.run (.single (.act d t op))
  | @deliver d _ _ _ hstep ih => exact ih.run (.single (.deliver hstep))

/-- What a context that goes without its server has started is gone if that server is. -/
theorem Holds.step (h : d.Holds c started) (hlater : d'.site.fabric.IsLater d.site.fabric)
    (hkeeps : ∀ running, c.server = some running →
      d'.site.fabric.isEnabled running.handle = true →
        c'.server.map (·.handle) = some running.handle) : d'.Holds c' started := by
  intro k hk
  obtain ⟨hissued, hheld⟩ := h k hk
  refine ⟨hlater.issued hissued, fun hen => ?_⟩
  have hwas := hlater.isEnabled_before hissued hen
  obtain ⟨running, hr, rfl⟩ := Option.map_eq_some_iff.1 (hheld hwas)
  exact hkeeps running hr hen

theorem Holds.start (h : d.Holds c started) (hd : d.Reachable) (hc : d.Owns c)
    (hsite : d'.site = (c.start t d.site domain registry).2.1) :
    d'.Holds (c.start t d.site domain registry).1
      (started ++ (c.start t d.site domain registry).2.2.toOption.toList) := by
  have hlater : d'.site.fabric.IsLater d.site.fabric := by
    rw [hsite]
    exact (c.paces_start t d.site domain registry).moves.isLater
  have hold : d'.Holds (c.start t d.site domain registry).1 started := by
    apply h.step hlater
    intro running hr hen
    have hgone := Context.isEnabled_start_of_held hr (hd.mirrored hc hr).issued t domain registry
    rw [hsite, hgone] at hen
    cases hen
  intro k hk
  rcases List.mem_append.1 hk with hk | hk
  · exact hold k hk
  · cases hf : (c.readied t d.site domain registry).fabric.failNextCreate with
    | true =>
        rw [Context.start_of_refused hf] at hk
        cases hk
    | false =>
        have hlaunched : (c.launched t d.site domain registry).fabric.Issued
            (c.readied t d.site domain registry).fabric.nextHandle := by
          rw [Context.launched, Site.create_of_accepted hf]
          exact Nat.lt_succ_self _
        have hissued := (c.paces_start_of_launched t d.site domain registry).moves.isLater.issued
          hlaunched
        rw [← hsite] at hissued
        rw [Context.start_of_accepted hf] at hk ⊢
        cases List.mem_singleton.1 hk
        exact ⟨hissued, fun _ => rfl⟩

theorem Tenure.holds (h : Tenure seat d started) :
    ∃ c, d.at? seat = some c ∧ d.Holds c started := by
  induction h with
  | @take d op hd h t =>
      obtain ⟨config, store, hc⟩ := h.at?_act d t
      exact ⟨_, hc, nofun⟩
  | @start d started op c domain registry h hc hasks t ih =>
      obtain ⟨c', hc', hholds⟩ := ih
      rw [hc] at hc'
      cases hc'
      obtain ⟨hafter, hsite⟩ := hasks.act hc t
      exact ⟨_, hafter, hholds.start h.reachable (owns_of_at? hc) hsite⟩
  | @act d started op h hstays hnot t ih =>
      obtain ⟨c, hc, hholds⟩ := ih
      have hlater := (moves_act d t op).isLater
      rcases at?_act hstays hnot with hafter | ⟨c', domain, hasks, hc', hafter⟩
      · refine ⟨c, hafter.trans hc, hholds.step hlater fun running hr _ => ?_⟩
        rw [hr]
        rfl
      · rw [hc] at hc'
        cases hc'
        refine ⟨_, hafter, hholds.step hlater fun running hr hen => ?_⟩
        rcases c.stop_cases t d.site domain with ⟨hsame, _⟩ | ⟨running', hr', _, hgone⟩
        · rw [hsame, hr]
          rfl
        · rw [hr] at hr'
          cases hr'
          rw [hasks.site_act, hgone (h.reachable.mirrored hasks.owns hr).issued] at hen
          cases hen
  | @deliver d started site h hstep ih =>
      obtain ⟨c, hc, hholds⟩ := ih
      refine ⟨c, (at?_congr rfl rfl seat).trans hc, ?_⟩
      apply hholds.step (Site.steps_of_step? hstep).moves.isLater
      intro running hr _
      rw [hr]
      rfl

/-- Every context sits where it does for a tenure. -/
theorem Reachable.exists_tenure (hd : d.Reachable) (hc : d.at? seat = some c) :
    ∃ started, Tenure seat d started := by
  obtain ⟨storage, processes, store, hrun⟩ := hd
  induction hrun generalizing c with
  | refl => cases seat <;> cases hc
  | @tail d₁ d₂ hbefore hstep ih =>
      cases hstep with
      | deliver hdeliver =>
          obtain ⟨started, h⟩ := ih ((at?_congr rfl rfl seat).symm.trans hc)
          exact ⟨started, h.deliver hdeliver⟩
      | act t op =>
          by_cases hclears : Clears seat op
          · cases hclears with
            | fill hfills => exact ⟨[], .take ⟨storage, processes, store, hbefore⟩ hfills t⟩
            | drop name => cases (d₁.at?_dropContext_self t name).symm.trans hc
            | shutdown => cases hc
          by_cases hstarts : ∃ domain registry, d₁.AsksToStart seat op domain registry
          · obtain ⟨domain, registry, hasks⟩ := hstarts
            cases hwas : d₁.at? seat with
            | none => cases (hasks.at?_act_of_none hwas).symm.trans hc
            | some c₁ =>
                obtain ⟨started, h⟩ := ih hwas
                exact ⟨_, h.start hwas hasks t⟩
          · have hnot : ∀ domain registry, ¬ d₁.AsksToStart seat op domain registry :=
              fun domain registry hasks => hstarts ⟨domain, registry, hasks⟩
            have hwas : ∃ c₁, d₁.at? seat = some c₁ := by
              rcases at?_act hclears hnot with hafter | ⟨c₁, _, _, hc₁, _⟩
              · exact ⟨c, hafter.symm.trans hc⟩
              · exact ⟨c₁, hc₁⟩
            obtain ⟨c₁, hc₁⟩ := hwas
            obtain ⟨started, h⟩ := ih hc₁
            exact ⟨started, h.act hclears hnot t⟩

/-- A start closes the server that is held, and nothing becomes of that one any more. The new one
hears nothing of it, and others are told that it is gone before they are told of the new one. -/
theorem Reachable.replaces_held {previous : Running} (hd : d.Reachable)
    (hc : d.at? seat = some c) (hr : c.server = some previous)
    (hasks : d.AsksToStart seat op domain registry) (t : Timing) :
    (c.readied t d.site domain registry).fabric.isEnabled previous.handle = false ∧
    (d.act t op).1.Retired previous.handle ∧
    ∀ new, (c.start t d.site domain registry).2.2 = .ok new → ∀ d', Run (d.act t op).1 d' →
      d'.site.heard previous.handle new = [] ∧
      ∀ hearer, d'.site.fabric.isEnabled hearer = true →
        wordsBetween previous.handle hearer (d'.site.tidings hearer) ≠ [] →
        d'.site.TellsDepartureFirst previous.handle new hearer := by
  have hissued := (hd.mirrored (owns_of_at? hc) hr).issued
  have hsite := (hasks.act hc t).2
  have hready := (c.paces_readied t d.site domain registry).moves
  have hclosed := Context.readied_of_held hr hissued t domain registry
  have hissued' := hready.isLater.issued hissued
  refine ⟨hclosed, ?_, fun new hnew d' hrun => ?_⟩
  · apply retired_of_isEnabled_eq_false ((moves_act d t op).isLater.issued hissued)
    rw [hsite]
    exact Context.isEnabled_start_of_held hr hissued t domain registry
  · have hunissued : ¬ (c.readied t d.site domain registry).fabric.Issued new := by
      cases hf : (c.readied t d.site domain registry).fabric.failNextCreate with
      | true =>
          rw [Context.start_of_refused hf] at hnew
          cases hnew
      | false =>
          rw [Context.start_of_accepted hf] at hnew
          cases hnew
          exact Fabric.not_issued_nextHandle _
    have hrest : Site.Moves (c.readied t d.site domain registry) d'.site := by
      have hstarted := Site.Paces.moves (.head (.create _ domain _ (.discovery registry _))
        (c.paces_start_of_launched t d.site domain registry))
      rw [← hsite] at hstarted
      exact hstarted.trans (Run.moves hrun)
    obtain ⟨log, hlog⟩ := hd.hasChronicle
    obtain ⟨more, hmore⟩ := hlog.moves hready
    obtain ⟨posted, hposted⟩ := hd.hasPosted
    obtain ⟨news, hnews⟩ := hposted.moves hready
    have hchronicled := hmore.chronicled
    have hnothing := hchronicled.words_eq_nil_of_newcomer hrest hissued' hclosed hunissued
    exact ⟨(List.append_eq_nil_iff.1 hnothing).1, fun hearer hen htold =>
      hchronicled.tells_departure_first hnews hrest hissued' hclosed hen htold hunissued⟩

/-- A stop that succeeds takes the server that is held from its domain for good. -/
theorem Reachable.retires_held {previous : Running} (hd : d.Reachable) (hc : d.Owns c)
    (hr : c.server = some previous) (hasks : d.AsksToStop op c domain)
    (hstopped : (c.stop t d.site domain).2.2 = .ok .stopped) :
    (d.act t op).1.Retired previous.handle := by
  have hissued := (hd.mirrored hc hr).issued
  apply retired_of_isEnabled_eq_false ((moves_act d t op).isLater.issued hissued)
  rcases c.stop_cases t d.site domain with ⟨_, hnot⟩ | ⟨running, hr', _, hgone⟩
  · exact absurd hstopped hnot
  · rw [hr] at hr'
    cases hr'
    rw [hasks.site_act]
    exact hgone hissued

/-- Of all the servers that a context has started, only the one that it holds can take part in a
domain. A start, whatever comes of it, and a stop that succeeds leave nothing of that one. It
is closed before the new one is created, so that the new one hears nothing of it, and whoever
takes part and is told of it, now or later, is told of its removal before anything of the new
one. -/
theorem Reachable.one_server (hd : d.Reachable) (hc : d.at? seat = some c) :
    (∃ started, Tenure seat d started) ∧
    (∀ started, Tenure seat d started → ∀ k ∈ started,
      d.site.fabric.isEnabled k = true → c.server.map (·.handle) = some k) ∧
    ∀ previous, c.server = some previous → ∀ t,
      (∀ op domain registry, d.AsksToStart seat op domain registry →
        (c.readied t d.site domain registry).fabric.isEnabled previous.handle = false ∧
        (d.act t op).1.Retired previous.handle ∧
        ∀ new, (c.start t d.site domain registry).2.2 = .ok new → ∀ d', Run (d.act t op).1 d' →
          d'.site.heard previous.handle new = [] ∧
          ∀ hearer, d'.site.fabric.isEnabled hearer = true →
            wordsBetween previous.handle hearer (d'.site.tidings hearer) ≠ [] →
            d'.site.TellsDepartureFirst previous.handle new hearer) ∧
      ∀ op domain, d.AsksToStop op c domain →
        (c.stop t d.site domain).2.2 = .ok .stopped → (d.act t op).1.Retired previous.handle := by
  refine ⟨hd.exists_tenure hc, fun started h k hk => ?_, fun previous hr t => ⟨?_, ?_⟩⟩
  · obtain ⟨c', hc', hholds⟩ := h.holds
    rw [hc] at hc'
    cases hc'
    exact (hholds k hk).2
  · intro op domain registry hasks
    exact hd.replaces_held hc hr hasks t
  · intro op domain hasks hstopped
    exact hd.retires_held (owns_of_at? hc) hr hasks hstopped

end Tenures

/-- A participant that listens, and a context on the same domain that starts a server. -/
def watched : Deployment :=
  (((new (Site.new .empty ⟨1, [], 0⟩) .memory).perform
    (.command (.create 1 ⟨Config.defaultRecoveryPrefix, none, []⟩ "watch" []))).1.act .late
      (.newContext "A" (Config.default (.ofString "state")))).1

def watching : Context := ⟨Config.default (.ofString "state"), .memory, some ⟨1, ⟨2⟩⟩⟩

/-- The same after some starts, each of which replaces the server before; nothing is delivered. -/
def watchedAfter : Nat → Deployment
  | 0 => watched
  | starts + 1 => ((watchedAfter starts).act .late (.start "A" 1 .empty)).1

/-- Who listens hears of nobody as one server replaces the other, and then first that the one before
is removed. -/
theorem watcher_hears_removal : (watchedAfter 2).Retired ⟨2⟩ ∧
    (watchedAfter 2).site.received ⟨1⟩ = [] ∧
    ∃ front profile, wordsBetween ⟨3⟩ ⟨1⟩ front = [] ∧
      front ++ [⟨⟨2⟩, ⟨1⟩, ⟨.removed, .participant ⟨2⟩ profile⟩⟩] <+:
        (watchedAfter 2).site.drain.received ⟨1⟩ := by
  have hfirst : Reachable ((new (Site.new .empty ⟨1, [], 0⟩) .memory).perform
      (.command (.create 1 ⟨Config.defaultRecoveryPrefix, none, []⟩ "watch" []))).1 :=
    ⟨_, _, _, run_perform _ _⟩
  have hnow : (watchedAfter 1).at? (.named "A") = some watching := by cbv
  have hd : (watchedAfter 1).Reachable :=
    hfirst.run ((Relation.ReflTransGen.single (.act _ .late _)).tail (.act _ .late _))
  obtain ⟨_, _, hheld⟩ := hd.one_server hnow
  obtain ⟨_, hretired, hnew⟩ := (hheld _ rfl .late).1 _ _ _ (.named "A" 1 .empty)
  have hthird : (watching.start .late (watchedAfter 1).site 1 .empty).2.2 = .ok ⟨3⟩ := by cbv
  have hlater : Run (watchedAfter 2)
      { watchedAfter 2 with site := (watchedAfter 2).site.drain } :=
    run_drains (watchedAfter 2) (Site.drains_drain _)
  have hold : (wordsBetween ⟨2⟩ ⟨1⟩ ((watchedAfter 2).site.drain.tidings ⟨1⟩)).isEmpty = false := by
    cbv
  have hthen : ((watchedAfter 2).site.drain.heard ⟨3⟩ ⟨1⟩).isEmpty = false := by cbv
  obtain ⟨front, _, profile, _, hfront, hreceived⟩ :=
    (hnew ⟨3⟩ hthird _ hlater).2 ⟨1⟩ (by cbv) (List.isEmpty_eq_false_iff.1 hold)
  exact ⟨hretired, by cbv, front, profile, hfront,
    hreceived (List.isEmpty_eq_false_iff.1 hthen)⟩

end Deployment

end Rendezvous
