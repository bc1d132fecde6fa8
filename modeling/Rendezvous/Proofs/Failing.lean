import Rendezvous.Proofs.EntityIds
import Rendezvous.Proofs.Launching

/-!
# What failing operations leave

A reader or writer that is not announced or withdrawn, a participant that is not deleted or
not created, a server that is not stopped: each of them fails before anything was done. Main
statement: a deployment in which something fails is as it was, whatever is on its way at that
moment, save that a request to refuse a creation is used up by the creation that it refuses.
-/

namespace Rendezvous

namespace Site

variable {s : Site}

/-- The site once a creation was refused: the request to refuse one is used up. -/
def spent (s : Site) : Site := { s with fabric := { s.fabric with failNextCreate := false } }

/-! ## Commands -/

theorem addEntities_of_unknown {owner : Handle} (h : s.fabric.members.find? owner = none)
    (kind : EntityKind) (topicName typeName : String) (locators : RemoteLocators) (copies : Nat)
    (reply : Reply) :
    (s.addEntities owner kind topicName typeName locators copies reply).1 = s := by
  induction copies generalizing reply with
  | zero => rfl
  | succ copies ih =>
      have hadd : s.fabric.addEntity owner kind topicName typeName locators =
          .error (.unknownParticipant owner) := by
        simp only [Fabric.addEntity, h]
      simp only [addEntities, hadd]
      exact ih _

/-- A participant that is known stays known, so all that it announces is announced. -/
theorem addEntities_ne_failed {owner : Handle} {m : Member}
    (hm : s.fabric.members.find? owner = some m) (kind : EntityKind)
    (topicName typeName : String) (locators : RemoteLocators) (copies : Nat) (reply : Reply)
    (hreply : ∀ e, reply ≠ .failed e) (e : FabricError) :
    (s.addEntities owner kind topicName typeName locators copies reply).2 ≠ .failed e := by
  induction copies generalizing s m reply with
  | zero => exact hreply e
  | succ copies ih =>
      obtain ⟨f', hadd, hfound⟩ := Fabric.addEntity_of_find? hm kind topicName typeName locators
      simp only [addEntities, hadd]
      exact ih (s := { s with fabric := f' }) hfound (.entity _) (by simp)

theorem replyWith_of_failed {result : Except FabricError Fabric} {e : FabricError}
    (h : (s.replyWith result).2 = .failed e) : (s.replyWith result).1 = s := by
  cases result with
  | ok fabric => cases h
  | error e' => rfl

/-- A creation is refused on request only, and uses the request up. -/
theorem create_eq_none {s' : Site} {domain : UInt32} {profile : Profile} {l : Listener}
    (h : s.create domain profile l = (s', none)) :
    s.fabric.failNextCreate = true ∧ s' = s.spent := by
  cases hf : s.fabric.failNextCreate with
  | true =>
      rw [create_of_refused hf] at h
      cases h
      exact ⟨rfl, rfl⟩
  | false =>
      rw [create_of_accepted hf] at h
      cases h

theorem perform_of_failed {c : Command} {e : FabricError} (h : (s.perform c).2 = .failed e) :
    (s.perform c).1 = s := by
  cases c with
  | create domain profile label script =>
      simp only [perform] at h
      split at h <;> cases h
  | addEntity owner kind topicName typeName locators copies =>
      cases hm : s.fabric.members.find? owner with
      | none => exact addEntities_of_unknown hm kind topicName typeName locators copies .nothing
      | some m =>
          exact absurd h (addEntities_ne_failed hm kind topicName typeName locators copies .nothing
            (by simp) e)
  | removeEntity owner id => exact replyWith_of_failed h
  | updateQos k => exact replyWith_of_failed h
  | delete k =>
      rcases hd : s.delete k with ⟨s', result⟩
      simp only [perform, hd] at h ⊢
      cases result with
      | ok _ => cases h
      | error e' => exact delete_eq_error hd
  | addPeer => cases h
  | close => cases h
  | failNextCreate => cases h
  | refuseDeletes => cases h
  | contains => cases h
  | isEnabled => cases h
  | count => cases h
  | panic => cases h

theorem perform_create_of_nothing {domain : UInt32} {profile : Profile} {label : String}
    {script : Script} (h : (s.perform (.create domain profile label script)).2 = .nothing) :
    s.fabric.failNextCreate = true ∧
      (s.perform (.create domain profile label script)).1 = s.spent := by
  rcases hc : s.create domain profile (.scripted label script) with ⟨s', created⟩
  simp only [perform, hc] at h ⊢
  cases created with
  | some k => cases h
  | none => exact create_eq_none hc

end Site

namespace Context

variable {c : Context} {t : Timing} {s : Site} {domain : UInt32} {e : BridgeError}

/-- Joining a domain to recover it fails only when the participant is refused. -/
theorem recover_of_error (h : (c.recover t s domain).2 = .error e) :
    e = .creationFailure domain ∧ s.fabric.failNextCreate = true ∧
      c.recover t s domain = (s.spent, .error e) := by
  rcases hc : s.create domain c.config.recoveryQos.profile (.recovery c.config.serverPrefix 0)
    with ⟨s', created⟩
  simp only [recover, hc] at h ⊢
  cases created with
  | some k => cases h
  | none =>
      obtain ⟨hasked, rfl⟩ := Site.create_eq_none hc
      cases h
      exact ⟨rfl, hasked, rfl⟩

/-- A stop fails when the server of the context is not deleted, or when there is none on the
domain and no participant can be created to recover it. Either way the context holds what it
held. -/
theorem stop_of_error (h : (c.stop t s domain).2.2 = .error e) :
    (∃ source, e = .deletionFailure domain source ∧ c.stop t s domain = (c, s, .error e)) ∨
      e = .creationFailure domain ∧ s.fabric.failNextCreate = true ∧
        c.stop t s domain = (c, s.spent, .error e) := by
  cases hr : c.serverOn? domain with
  | none =>
      simp only [stop, hr] at h ⊢
      obtain ⟨he, hf, hrecover⟩ := recover_of_error h
      exact .inr ⟨he, hf, by rw [hrecover]⟩
  | some running =>
      rcases hd : s.delete running.handle with ⟨s', result⟩
      simp only [stop, hr, hd] at h ⊢
      cases result with
      | ok _ => cases h
      | error source =>
          cases h
          exact .inl ⟨source, rfl, by rw [Site.delete_eq_error hd]⟩

end Context

/-! ## Deployments -/

def Answer.refusesCreation : Answer → Bool
  | .reply .nothing => true
  | .failed (.creationFailure _) => true
  | .status .creationFailure => true
  | _ => false

/-- What an answer of failure leaves of a site. -/
def Site.leftBy (s : Site) (answer : Answer) : Site :=
  if answer.refusesCreation then s.spent else s

namespace Deployment

/-- Whether an answer says that an operation failed. -/
inductive Fails : Operation → Answer → Prop
  | command (c : Command) (e : FabricError) : Fails (.command c) (.reply (.failed e))
  | creation (domain : UInt32) (profile : Profile) (label : String) (script : Script) :
      Fails (.command (.create domain profile label script)) (.reply .nothing)
  | stop (name : String) (domain : UInt32) (e : BridgeError) :
      Fails (.stop name domain) (.failed e)
  | stopInstalled (domain : UInt32) (e : BridgeError) :
      Fails (.stopInstalled domain) (.status (.ofError e))

variable {d : Deployment} {t : Timing} {op : Operation} {c : Context} {name : String}
  {domain : UInt32} {e : BridgeError}

theorem setContext_of_find? (hc : d.contexts.find? name = some c) : d.setContext name c = d := by
  have hsame : d.contexts.insert name c = d.contexts := OrderedMap.alter_of_eq hc.symm
  rw [setContext, hsame]

/-- Whoever asks a context for a stop that fails, the context is kept where it is. -/
theorem AsksToStop.act_of_error (hasks : d.AsksToStop op c domain) {site : Site}
    (hstop : c.stop t d.site domain = (c, site, .error e)) : (d.act t op).1 = { d with site } := by
  rcases hasks with ⟨name, rfl, hc⟩ | ⟨rfl, hc⟩
  · rw [act_stop hc t, hstop]
    exact setContext_of_find? (d := { d with site }) hc
  · simp only [act, answered, HostInterface.Bridge.stop, hc, hstop]
    rw [← hc]

/-- Where it is not a command that fails, a context failed to stop a server, with the error that
is answered or told by a status. -/
theorem Fails.exists_stop (h : Fails op (d.act t op).2) (hop : ∀ c, op ≠ .command c) :
    ∃ c domain e, d.AsksToStop op c domain ∧ (c.stop t d.site domain).2.2 = .error e ∧
      ((d.act t op).2 = .failed e ∨ (d.act t op).2 = .status (.ofError e)) := by
  generalize ha : (d.act t op).2 = answer at h ⊢
  cases h with
  | command c e => exact absurd rfl (hop c)
  | creation => exact absurd rfl (hop _)
  | stop name domain e =>
      cases hc : d.contexts.find? name with
      | none =>
          rw [act, withContext_none hc] at ha
          cases ha
      | some c =>
          rcases hstop : c.stop t d.site domain with ⟨c', site, result⟩
          simp only [act, withContext, hc, hstop] at ha
          cases result with
          | ok outcome => cases ha
          | error e' =>
              cases ha
              exact ⟨c, domain, e, .inl ⟨name, rfl, hc⟩, by rw [hstop], .inl rfl⟩
  | stopInstalled domain e =>
      cases hc : d.bridge.installed with
      | none =>
          simp only [act, answered, HostInterface.Bridge.stop, hc] at ha
          cases e <;> cases ha
      | some c =>
          rcases hstop : c.stop t d.site domain with ⟨c', site, result⟩
          simp only [act, answered, HostInterface.Bridge.stop, hc, hstop] at ha
          cases result with
          | ok outcome => cases e <;> cases ha
          | error e' => exact ⟨c, domain, e', .inr ⟨rfl, hc⟩, by rw [hstop], .inr ha.symm⟩

/-- A command that fails does nothing, but for a request used up where nobody is created. -/
theorem act_command_of_fails {command : Command} (h : Fails (.command command)
      (.reply (d.site.perform command).2)) (t : Timing) :
    (d.act t (.command command)).1 =
        { d with site := d.site.leftBy (.reply (d.site.perform command).2) } ∧
      (Answer.refusesCreation (.reply (d.site.perform command).2) = true →
        d.site.fabric.failNextCreate = true) := by
  generalize hr : (d.site.perform command).2 = reply at h ⊢
  cases h with
  | command _ e =>
      have hsame := Site.perform_of_failed hr
      exact ⟨by simp only [act, hsame]; rfl, nofun⟩
  | creation domain profile label script =>
      obtain ⟨hasked, hspent⟩ := Site.perform_create_of_nothing hr
      exact ⟨by simp only [act, hspent]; rfl, fun _ => hasked⟩

/-- A failing operation leaves a deployment as it was: the participants with their entities and
numbers, the next handle, what is on its way, the listeners, what was seen, every record, and
what the contexts hold. Only a request to refuse a creation is used up, by the creation that is
refused. The deployment need not be between two operations: it may be in the midst of a delivery,
where a listener is what asks. -/
theorem Fails.leaves_all (h : Fails op (d.act t op).2) :
    (d.act t op).1 = { d with site := d.site.leftBy (d.act t op).2 } ∧
      ((d.act t op).2.refusesCreation = true → d.site.fabric.failNextCreate = true) := by
  by_cases hop : ∀ command, op ≠ .command command
  · obtain ⟨c, domain, e, hasks, herror, hanswer⟩ := h.exists_stop hop
    rcases Context.stop_of_error herror with ⟨source, rfl, hstop⟩ | ⟨rfl, hasked, hstop⟩
    · have hkept : (d.act t op).2.refusesCreation = false := by
        rcases hanswer with hanswer | hanswer <;> rw [hanswer] <;> rfl
      rw [hasks.act_of_error hstop, Site.leftBy, hkept]
      exact ⟨rfl, nofun⟩
    · have hrefused : (d.act t op).2.refusesCreation = true := by
        rcases hanswer with hanswer | hanswer <;> rw [hanswer] <;> rfl
      rw [hasks.act_of_error hstop, Site.leftBy, hrefused]
      exact ⟨rfl, fun _ => hasked⟩
  · obtain ⟨command, rfl⟩ := not_forall_not.1 hop
    exact act_command_of_fails h t

/-- Word of a change is on its way to a server that cannot be deleted. -/
def inTransit : Deployment := (withStubborn.act .late (.command (.updateQos ⟨2⟩))).1

/-- It is on its way still when all else has failed. -/
theorem stubborn_left_alone :
    inTransit.site.fabric.queue.toList.length = 1 ∧
    (inTransit.act .prompt (.stop "A" 1)).1 = inTransit ∧
    (inTransit.act .prompt (.stop "A" 2)).1 = { inTransit with site := inTransit.site.spent } ∧
    (inTransit.act .prompt (.command (.delete ⟨1⟩))).1 = inTransit := by
  have hkept : (inTransit.act .prompt (.stop "A" 1)).2 =
      .failed (.deletionFailure 1 (.refused "deletion disabled")) := by cbv
  have hrefused : (inTransit.act .prompt (.stop "A" 2)).2 = .failed (.creationFailure 2) := by cbv
  have hdelete : (inTransit.act .prompt (.command (.delete ⟨1⟩))).2 =
      .reply (.failed (.refused "deletion disabled")) := by cbv
  obtain ⟨hstop, -⟩ := Fails.leaves_all (hkept ▸ Fails.stop "A" 1 _)
  obtain ⟨hrecover, -⟩ := Fails.leaves_all (hrefused ▸ Fails.stop "A" 2 _)
  obtain ⟨hcommand, -⟩ := Fails.leaves_all (hdelete ▸ Fails.command (.delete ⟨1⟩) _)
  rw [hkept] at hstop
  rw [hrefused] at hrecover
  rw [hdelete] at hcommand
  exact ⟨by cbv, hstop, hrecover, hcommand⟩

end Deployment

end Rendezvous
