import Rendezvous.Proofs.Listeners
import Rendezvous.Proofs.LiveGraph

/-!
# What is called once a context is given up

Callbacks are called for participants that take part in their domains only. So nothing is
called any more for a server whose context is given up, as long as the server goes with
it. A server that cannot be deleted stays where it is, and what is bound to it goes on
being called.
-/

namespace Rendezvous

def Sighting.isCallFor (h : Handle) : Sighting → Bool
  | .called listener _ => listener == h
  | .calledForeign listener _ _ _ _ => listener == h
  | _ => false

namespace Site

def callsFor (s : Site) (h : Handle) : List Sighting := s.journal.filter (·.isCallFor h)

theorem callsFor_note (s : Site) (x : Sighting) (h : Handle) :
    (s.note x).callsFor h = s.callsFor h ++ if x.isCallFor h then [x] else [] := by
  rw [callsFor, journal_note, List.filter_append, callsFor]
  cases hx : x.isCallFor h <;> simp [hx]

theorem callsFor_note_of_not {s : Site} {x : Sighting} {h : Handle}
    (hx : x.isCallFor h = false) : (s.note x).callsFor h = s.callsFor h := by
  rw [callsFor_note, hx, if_neg Bool.false_ne_true, List.append_nil]

theorem isCallFor_sighting (h k : Handle) (call : Call) :
    (sighting h call).isCallFor k = (h == k) := by
  unfold sighting
  split <;> rfl

theorem isCallFor_of_isNews {f : Fabric} {x : Sighting} (hx : x.IsNews f) {k : Handle}
    (hk : f.isEnabled k = false) : x.isCallFor k = false := by
  cases hx with
  | @called h hen call =>
      rw [isCallFor_sighting]
      have hne : h ≠ k := by
        rintro rfl
        rw [hk] at hen
        cases hen
      simpa using hne
  | remark hx => cases hx <;> rfl
  | joined => rfl
  | closed => rfl
  | deleted => rfl
  | published => rfl
  | delivered => rfl

theorem Step.callsFor_eq {s s' : Site} (h : Step s s') {k : Handle}
    (hk : s.fabric.isEnabled k = false) : s'.callsFor k = s.callsFor k := by
  obtain ⟨news, hseen, hnews⟩ := h.adds
  have hnone : news.filter (·.isCallFor k) = [] := by
    refine List.filter_eq_nil_iff.2 fun x hx => ?_
    rw [isCallFor_of_isNews (hnews x hx) hk]
    exact Bool.false_ne_true
  rw [callsFor, callsFor, journal, journal, hseen, List.reverse_append, List.filter_append,
    List.filter_reverse (l := news), hnone, List.reverse_nil, List.append_nil]

theorem Move.callsFor_eq {s s' : Site} (h : Move s s') {k : Handle}
    (hk : s.fabric.isEnabled k = false) : s'.callsFor k = s.callsFor k := by
  cases h with
  | step h => exact h.callsFor_eq hk
  | keep => rfl
  | tell hnotice => cases hnotice <;> exact callsFor_note_of_not rfl

/-- A participant that does not take part is called for never again. -/
theorem Moves.callsFor_eq {s s' : Site} (h : Moves s s') {k : Handle}
    (hissued : s.fabric.Issued k) (hk : s.fabric.isEnabled k = false) :
    s'.callsFor k = s.callsFor k := by
  induction h with
  | refl => rfl
  | tail hrow hmove ih =>
      have hlater := Moves.isLater hrow
      rw [hmove.callsFor_eq (hlater.isEnabled_eq_false hissued hk), ih]

/-! ## Calls that are due -/

theorem callsFor_notePublished (s : Site) (before after : DiscoveryListener) (h : Handle) :
    (s.notePublished before after).callsFor h = s.callsFor h := by
  unfold notePublished
  split
  · split
    · rfl
    · exact callsFor_note_of_not rfl
  · rfl

theorem callsFor_delete (s : Site) (h k : Handle) : (s.delete h).1.callsFor k = s.callsFor k := by
  unfold delete
  split
  · exact callsFor_note_of_not rfl
  · rfl

theorem discoveryListener?_eq_some {s : Site} {h : Handle} {l : DiscoveryListener} :
    s.discoveryListener? h = some l ↔ s.listeners.find? h = some (.discovery l) := by
  unfold discoveryListener?
  split
  · rename_i heq
    simp [heq]
  · rename_i hne
    exact ⟨nofun, fun heq => absurd heq (hne l)⟩

/-- Whether a participant listens for a host, with some callbacks bound. -/
def Serves (s : Site) (h : Handle) (registry : Registry) : Prop :=
  s.fabric.Issued h ∧ ∃ l, s.discoveryListener? h = some l ∧ l.registry = registry

theorem Moves.serves {s s' : Site} (h : Moves s s') {k : Handle} {registry : Registry}
    (hk : s.Serves k registry) : s'.Serves k registry := by
  obtain ⟨hissued, l, hl, hregistry⟩ := hk
  obtain ⟨l', hl', hlater⟩ := Moves.listener h hissued (discoveryListener?_eq_some.1 hl)
  cases hlater with
  | discovery hsame =>
      exact ⟨(Moves.isLater h).issued hissued, _, discoveryListener?_eq_some.2 hl',
        hsame.trans hregistry⟩

/-- Whether the delivery that is due brings an event to a participant. -/
structure IsDue (s : Site) (h : Handle) (e : Event) : Prop where
  isEnabled : s.fabric.isEnabled h = true
  next : ∃ d fabric, s.fabric.next? = some (d, fabric) ∧ d.target = h ∧
    d.notification.event? = some e

theorem callsFor_respond (s : Site) (call : Call) (h : Handle) :
    (s.respond call).callsFor h = s.callsFor h := by
  unfold respond
  split
  · exact (callsFor_note_of_not rfl).trans (callsFor_delete _ _ _)
  · rfl

theorem Serves.callsFor_eq {s s' : Site} {h : Handle} {registry : Registry}
    (hserves : s.Serves h registry) {e : Event} (hdue : s.IsDue h e) {b : Binding}
    (hb : registry.binding e.category = some b) (hstep : s.step? = some s') :
    s'.callsFor h = s.callsFor h ++ [sighting h ⟨b, e⟩] := by
  obtain ⟨hen, d, fabric, hn, rfl, hevent⟩ := hdue
  obtain ⟨_, l, hl, rfl⟩ := hserves
  have hen' : fabric.isEnabled d.target = true := by
    rw [(Fabric.next?_eq_some hn).2]
    exact hen
  have hreceive : l.receive d.notification = (l.observe e, some ⟨b, e⟩) := by
    simp only [DiscoveryListener.receive, hevent, hb]
  have hfind := discoveryListener?_eq_some.1 hl
  simp only [step?, hn, Option.map_some, Option.some.injEq] at hstep
  simp only [deliver, hen', if_true, hfind, hear, hreceive, invoke] at hstep
  subst hstep
  refine (callsFor_respond _ ⟨b, e⟩ d.target).trans ?_
  rw [callsFor_note, callsFor_notePublished, isCallFor_sighting, BEq.rfl, if_pos rfl]
  exact congrArg (· ++ _) (callsFor_note_of_not rfl)

end Site

/-! ## Contexts that are given up -/

/-- A context that is given up asks for its server to be deleted before all else. -/
theorem Context.paces_drop_of_delete {c : Context} {running : Running}
    (hr : c.server = some running) (t : Timing) (s : Site) :
    Site.Paces (s.delete running.handle).1 (c.drop t s) := by
  rcases hdelete : s.delete running.handle with ⟨s', result⟩
  simp only [drop, hr, hdelete]
  cases result with
  | ok _ =>
      exact ((Site.paces_pause t .deleted s').tail (.tell _ (.dropped _ _))).trans
        (Site.paces_clearRecord _ _ _)
  | error e => exact .refl

namespace Deployment

/-- Whether an operation gives up a context: one that drops it or puts another in its place. -/
inductive GivesUp (d : Deployment) (c : Context) : Operation → Prop
  | drop {name : String} (h : d.contexts.find? name = some c) : GivesUp d c (.dropContext name)
  | replace {name : String} {config : Config} (h : d.contexts.find? name = some c)
      (hvalid : config.validate = .ok ()) : GivesUp d c (.newContext name config)
  | shutdown (h : d.bridge.installed = some c) : GivesUp d c .shutdown
  | reinstall {config : Config} {ownFiles : Bool} (h : d.bridge.installed = some c)
      (hvalid : config.validate = .ok ()) : GivesUp d c (.install config ownFiles)

variable {d : Deployment} {c : Context} {t : Timing} {op : Operation}

theorem GivesUp.owns (h : d.GivesUp c op) : d.Owns c := by
  cases h with
  | drop h => exact .inl ⟨_, h⟩
  | replace h _ => exact .inl ⟨_, h⟩
  | shutdown h => exact .inr h
  | reinstall h _ => exact .inr h

theorem new_of_validate {config : Config} (h : config.validate = .ok ()) (store : Store) :
    Context.new config store = .ok ⟨config, store, none⟩ := by
  simp only [Context.new, h]

theorem GivesUp.site_act (h : d.GivesUp c op) (t : Timing) :
    (d.act t op).1.site = c.drop t d.site := by
  cases h with
  | drop h => simp only [act, dropContext, h]
  | replace h hvalid =>
      simp only [act, new_of_validate hvalid, setContext, dropContext, h]
  | shutdown h =>
      simp only [act, answered, HostInterface.Bridge.shutdown,
        HostInterface.Bridge.dropInstalled, h]
  | reinstall h hvalid =>
      simp only [act, HostInterface.Bridge.install, new_of_validate hvalid,
        HostInterface.Bridge.dropInstalled, h]

/-- Whether nothing is ever called again for the listener of a participant. -/
def Silent (d : Deployment) (h : Handle) : Prop :=
  ∀ d', Run d d' → d'.site.callsFor h = d.site.callsFor h

/-- Once the server is gone nothing is called for it. It is gone unless its deletion was
refused; a server that is left in place goes on calling whatever is bound. -/
theorem Reachable.silent_of_givesUp (hd : d.Reachable) (hgive : d.GivesUp c op)
    {running : Running} (hr : c.server = some running) :
    (d.site.fabric.refuseDeletes = false →
      (d.act t op).1.site.fabric.isEnabled running.handle = false) ∧
    ((d.act t op).1.site.fabric.isEnabled running.handle = false →
      (d.act t op).1.Silent running.handle) ∧
    ∃ l, d.site.discoveryListener? running.handle = some l ∧ ∀ d', Run (d.act t op).1 d' →
      ∀ e b s, d'.site.IsDue running.handle e → l.registry.binding e.category = some b →
        d'.site.step? = some s →
          s.callsFor running.handle =
            d'.site.callsFor running.handle ++ [Site.sighting running.handle ⟨b, e⟩] := by
  have hm := hd.mirrored hgive.owns hr
  have hmoves := moves_act d t op
  refine ⟨fun href => ?_, fun hgone d' hrun => ?_, ?_⟩
  · have hdeleted := Site.isEnabled_delete href running.handle
    have hissued := (Site.Move.step (.delete d.site running.handle)).isLater.issued hm.issued
    have hlater := (Context.paces_drop_of_delete hr t d.site).moves.isLater
    rw [hgive.site_act t]
    exact hlater.isEnabled_eq_false hissued hdeleted
  · exact (Run.moves hrun).callsFor_eq (hmoves.isLater.issued hm.issued) hgone
  · obtain ⟨l, g, hl, _⟩ := hm.graph
    have hlistener := Site.discoveryListener?_eq_some.2 hl
    refine ⟨l, hlistener, fun d' hrun e b s hdue hb hstep => ?_⟩
    have hserves : d.site.Serves running.handle l.registry := ⟨hm.issued, l, hlistener, rfl⟩
    have hrow : Site.Moves d.site d'.site := hmoves.trans (Run.moves hrun)
    exact (hrow.serves hserves).callsFor_eq hdue hb hstep

/-- A server on domain 1 that calls the host upon every participant it discovers; deletions
may be refused once it is started. -/
def withCallback (refuseDeletes : Bool) : Deployment :=
  (new (Site.new .empty ⟨1, [], 0⟩) .memory).performAll
    [.newContext "A" (Config.default (.ofString "state")),
      .start "A" 1 (Registry.empty.put .participantDiscovered (some ⟨.native "log" .yields, ""⟩)),
      .command (.refuseDeletes refuseDeletes)]

def callingContext : Context :=
  ⟨Config.default (.ofString "state"), .memory, some ⟨1, ⟨1⟩⟩⟩

theorem find?_withCallback (refuseDeletes : Bool) :
    (withCallback refuseDeletes).contexts.find? "A" = some callingContext := by
  cases refuseDeletes <;> cbv

theorem silent_once_dropped :
    ((withCallback false).act .late (.dropContext "A")).1.Silent ⟨1⟩ := by
  have hd : (withCallback false).Reachable := ⟨_, _, _, run_performAll _ _⟩
  have hgive : (withCallback false).GivesUp callingContext (.dropContext "A") :=
    .drop (find?_withCallback false)
  have href : (withCallback false).site.fabric.refuseDeletes = false := by cbv
  obtain ⟨hgone, hsilent, _⟩ := hd.silent_of_givesUp hgive rfl
  exact hsilent (hgone href)

/-- A server that could not be deleted calls the host upon the next participant that joins. -/
theorem not_silent_once_dropped :
    ¬ ∀ (d : Deployment) (c : Context) (t : Timing) (op : Operation) (running : Running),
      d.Reachable → d.GivesUp c op → c.server = some running →
        (d.act t op).1.Silent running.handle := by
  intro halways
  have hd : (withCallback true).Reachable := ⟨_, _, _, run_performAll _ _⟩
  have hgive : (withCallback true).GivesUp callingContext (.dropContext "A") :=
    .drop (find?_withCallback true)
  have hsilent := halways _ _ .prompt _ ⟨1, ⟨1⟩⟩ hd hgive rfl _
    (run_perform _ (.command (.addPeer 1 ⟨Config.defaultRecoveryPrefix, none, []⟩)))
  have hbefore :
      (((withCallback true).act .prompt (.dropContext "A")).1.site.callsFor ⟨1⟩).length = 0 := by
    cbv
  have hafter : ((((withCallback true).act .prompt (.dropContext "A")).1.perform
      (.command (.addPeer 1 ⟨Config.defaultRecoveryPrefix, none, []⟩))).1.site.callsFor
        ⟨1⟩).length = 1 := by
    cbv
  rw [hsilent, hbefore] at hafter
  cases hafter

end Deployment

end Rendezvous
