import Rendezvous.Proofs.LiveGraph
import Rendezvous.Proofs.Telling

/-!
# What participants hear of each other

What one participant has heard of another one, and then what is still on its way, is what a
chronicle has for it to hear. Main statement: whatever happens at a site, and whoever asks
for it, a participant hears of another one the beginning of that history, and all of it once
nothing is on its way; and nobody hears of itself.
-/

namespace Rendezvous

namespace Site

def heard (s : Site) (speaker hearer : Handle) : List Notification :=
  wordsBetween speaker hearer s.deliveries

/-- Whether a chronicle was kept of all that has happened at a site. -/
inductive HasChronicle : Site → List Happening → Prop
  | new (storage : Storage) (processes : ProcessTable) : HasChronicle (new storage processes) []
  | move {s s' : Site} {log entries : List Happening} (h : HasChronicle s log) (hmove : Move s s')
      (hdoes : s.fabric.Does entries s'.fabric) : HasChronicle s' (log ++ entries)

theorem Move.does {s s' : Site} (h : Move s s') : ∃ entries, s.fabric.Does entries s'.fabric := by
  cases h with
  | step h => exact h.does
  | keep => exact ⟨_, .nothing _⟩
  | tell => exact ⟨_, .nothing _⟩

/-- A chronicle can be kept whatever happens. -/
theorem HasChronicle.moves {s s' : Site} {log : List Happening} (h : s.HasChronicle log)
    (hrow : Moves s s') : ∃ more, s'.HasChronicle (log ++ more) := by
  induction hrow with
  | refl => exact ⟨[], (List.append_nil log).symm ▸ h⟩
  | tail _ hmove ih =>
      obtain ⟨more, hbefore⟩ := ih
      obtain ⟨entries, hdoes⟩ := hmove.does
      refine ⟨more ++ entries, ?_⟩
      rw [← List.append_assoc]
      exact hbefore.move hmove hdoes

structure Recounts (s : Site) (log : List Happening) (speaker hearer : Handle) : Prop where
  begins : s.heard speaker hearer <+: history speaker hearer log
  complete : s.fabric.isEnabled hearer = true →
    s.heard speaker hearer ++ s.fabric.between speaker hearer = history speaker hearer log

structure Chronicled (s : Site) (log : List Happening) : Prop where
  sound : s.Sound
  routes : s.Routes
  attended : s.Attended
  follows : s.fabric.Follows log
  orderly : Orderly log
  recounts : ∀ {speaker hearer}, speaker ≠ hearer → s.Recounts log speaker hearer

section Recounts

variable {s s' : Site} {log entries : List Happening} {speaker hearer : Handle}

/-- Who has not joined yet has heard nothing, and nothing is on its way to it. -/
theorem Chronicled.nothing_of_not_issued (h : s.Chronicled log) (hne : speaker ≠ hearer)
    (hissued : ¬ s.fabric.Issued hearer) :
    s.heard speaker hearer = [] ∧ s.fabric.between speaker hearer = [] ∧
      history speaker hearer log = [] := by
  have hunmet : meeting? speaker hearer log = none :=
    meeting?_of_unknown (.inr (h.follows.unknown hissued))
  have hhistory := history_of_none hunmet
  refine ⟨?_, ?_, hhistory⟩
  · have hprefix := (h.recounts hne).begins
    rw [hhistory] at hprefix
    exact List.prefix_nil.1 hprefix
  · refine wordsBetween_eq_nil fun d hd _ htarget => hissued ?_
    rw [← htarget]
    exact (h.routes.queue d hd).target

theorem Chronicled.recounts_of_sends (h : s.Chronicled log) (hne : speaker ≠ hearer)
    (hmove : Move s s') (hdoes : s.fabric.Does entries s'.fabric)
    (hgrows : s.fabric.queue.toList <+: s'.fabric.queue.toList)
    (hsame : s'.deliveries = s.deliveries) : s'.Recounts (log ++ entries) speaker hearer := by
  have hheard : s'.heard speaker hearer = s.heard speaker hearer := by rw [heard, hsame, heard]
  have hbefore := h.recounts hne
  constructor
  · rw [hheard]
    exact hbefore.begins.trans (history_append_grows _ _ _ _)
  · intro hen
    obtain ⟨news, hnews, hhistory⟩ := hdoes.tells hgrows h.sound.fabric h.follows hne hen
    rw [hheard, hnews, hhistory, ← List.append_assoc]
    congr 1
    cases hwas : s.fabric.isEnabled hearer with
    | true => exact hbefore.complete hwas
    | false =>
        -- Who takes part now and did not before has only just joined.
        have hissued : ¬ s.fabric.Issued hearer := by
          intro hissued
          have hstill := hmove.isLater.isEnabled_eq_false hissued hwas
          rw [hen] at hstill
          cases hstill
        obtain ⟨hnone, hempty, hnever⟩ := h.nothing_of_not_issued hne hissued
        rw [hnone, hempty, hnever]
        rfl

/-- What is heard was next on its way. -/
theorem Chronicled.recounts_of_makes (h : s.Chronicled log) (hne : speaker ≠ hearer)
    {d : Delivery} (hn : s.fabric.next? = some (d, s'.fabric))
    (hen : s.fabric.isEnabled d.target = true) (hmade : s'.deliveries = s.deliveries ++ [d]) :
    s'.Recounts log speaker hearer := by
  have hheard : s'.heard speaker hearer = s.heard speaker hearer ++
      wordsBetween speaker hearer [d] := by
    rw [heard, hmade, wordsBetween_append, heard]
  have hbetween := Fabric.between_of_next? hn speaker hearer
  have hbefore := h.recounts hne
  have hwhole : s.fabric.isEnabled hearer = true →
      s'.heard speaker hearer ++ s'.fabric.between speaker hearer = history speaker hearer log := by
    intro hwas
    rw [hheard, List.append_assoc, ← hbetween]
    exact hbefore.complete hwas
  constructor
  · by_cases htarget : d.target = hearer
    · rw [← hwhole (htarget ▸ hen)]
      exact List.prefix_append _ _
    · have hnone : wordsBetween speaker hearer [d] = [] := by
        refine wordsBetween_eq_nil fun d' hd' _ hto => htarget ?_
        cases List.mem_singleton.1 hd'
        exact hto
      rw [hheard, hnone, List.append_nil]
      exact hbefore.begins
  · intro hnow
    rw [Fabric.isEnabled_of_next? hn] at hnow
    exact hwhole hnow

/-- What is lost was on its way to somebody who takes part no more. -/
theorem Chronicled.recounts_of_loses (h : s.Chronicled log) (hne : speaker ≠ hearer)
    {d : Delivery} (hn : s.fabric.next? = some (d, s'.fabric))
    (hlost : s.fabric.isEnabled d.target = false ∨ s.listeners.find? d.target = none)
    (hsame : s'.deliveries = s.deliveries) : s'.Recounts log speaker hearer := by
  have hheard : s'.heard speaker hearer = s.heard speaker hearer := by rw [heard, hsame, heard]
  have hbetween := Fabric.between_of_next? hn speaker hearer
  have hbefore := h.recounts hne
  constructor
  · rw [hheard]
    exact hbefore.begins
  · intro hnow
    rw [Fabric.isEnabled_of_next? hn] at hnow
    have hwhole := hbefore.complete hnow
    suffices hnone : wordsBetween speaker hearer [d] = [] by
      rw [hbetween, hnone, List.nil_append] at hwhole
      rw [hheard]
      exact hwhole
    refine wordsBetween_eq_nil fun d' hd' hsource htarget => ?_
    cases List.mem_singleton.1 hd'
    subst hsource htarget
    obtain ⟨m, hm, hmen⟩ := Fabric.isEnabled_iff.1 hnow
    have hpresent := h.follows.present_iff.2
      (Fabric.presence?_eq_some_iff.2 ⟨m, hm, hmen, rfl⟩)
    cases hmet : meeting? d.source d.target log with
    | none =>
        rw [history_of_none hmet, hbetween] at hwhole
        simp [wordsBetween] at hwhole
    | some n =>
        obtain ⟨l, hl⟩ := h.attended d.target m hm (listens_of_meeting? hmet hpresent)
        rcases hlost with hlost | hlost
        · rw [hlost] at hnow
          cases hnow
        · rw [hl] at hlost
          cases hlost

end Recounts

theorem chronicled_new (storage : Storage) (processes : ProcessTable) :
    (new storage processes).Chronicled [] where
  sound := sound_new storage processes
  routes := routes_new storage processes
  attended := attended_new storage processes
  follows := Fabric.follows_empty
  orderly := by
    intro past k e x hpast
    exact absurd (List.prefix_nil.1 hpast) (by simp)
  recounts _ := ⟨List.nil_prefix, fun _ => rfl⟩

theorem HasChronicle.chronicled {s : Site} {log : List Happening} (h : s.HasChronicle log) :
    s.Chronicled log := by
  induction h with
  | new storage processes => exact chronicled_new storage processes
  | @move s s' log entries _ hmove hdoes ih =>
      refine ⟨hmove.sound ih.sound, hmove.routes ih.sound ih.routes,
        hmove.attended ih.sound ih.attended, hdoes.follows ih.sound.fabric ih.follows,
        hdoes.orderly ih.follows ih.orderly, fun hne => ?_⟩
      cases hmove.carries with
      | sends hgrows hsame => exact ih.recounts_of_sends hne hmove hdoes hgrows hsame
      | makes hn hen hmade =>
          rw [hdoes.eq_nil_of_next? hn, List.append_nil]
          exact ih.recounts_of_makes hne hn hen hmade
      | loses hn hlost hsame =>
          rw [hdoes.eq_nil_of_next? hn, List.append_nil]
          exact ih.recounts_of_loses hne hn hlost hsame

end Site

namespace Deployment

theorem Reachable.hasChronicle {d : Deployment} (h : d.Reachable) :
    ∃ log, d.site.HasChronicle log := by
  obtain ⟨storage, processes, store, hrun⟩ := h
  obtain ⟨log, hlog⟩ := (Site.HasChronicle.new storage processes).moves (Run.moves hrun)
  exact ⟨_, hlog⟩

/-- Whatever has happened, what a participant has heard of another one is the beginning of the
history that the chronicle has for it, and all of it once nothing is on its way: nothing if the
two never took part in one domain at once, and otherwise one word for each thing, with no
reader or writer removed that was not shown, and nothing after the departure. -/
theorem Reachable.heard_prefix_history {d : Deployment} (hd : d.Reachable) :
    (∀ delivery ∈ d.site.deliveries, delivery.source ≠ delivery.target ∧
      ∀ profile, delivery.notification.subject ≠ .participant delivery.target profile) ∧
    (∃ log, d.site.HasChronicle log) ∧
    ∀ log, d.site.HasChronicle log → ∀ speaker hearer, speaker ≠ hearer →
      d.site.heard speaker hearer <+: history speaker hearer log ∧
      (d.site.fabric.isEnabled hearer = true → d.site.fabric.queue.toList = [] →
        d.site.heard speaker hearer = history speaker hearer log) ∧
      ((∀ past, past <+: log → together speaker hearer past = false) →
        d.site.heard speaker hearer = []) ∧
      (∀ front, front <+: d.site.heard speaker hearer → ∀ subject,
        front.count ⟨.removed, subject⟩ ≤ front.count ⟨.discovered, subject⟩) ∧
      ∀ front last, Presence.IsFarewell speaker last →
        front ++ [last] <+: d.site.heard speaker hearer →
          d.site.heard speaker hearer = front ++ [last] := by
  obtain ⟨log₀, hlog₀⟩ := hd.hasChronicle
  refine ⟨fun delivery hmade => ?_, ⟨log₀, hlog₀⟩, fun log hlog speaker hearer hne => ?_⟩
  · have hrouted := hlog₀.chronicled.routes.made delivery hmade
    refine ⟨hrouted.ne, fun profile hsubject => ?_⟩
    exact hrouted.ne (hrouted.subject hsubject).symm
  · have hchronicled := hlog.chronicled
    have hrecounts := hchronicled.recounts hne
    refine ⟨hrecounts.begins, fun hen hqueue => ?_, fun hapart => ?_,
      fun front hfront subject => ?_, fun front last hlast hfront => ?_⟩
    · have hwhole := hrecounts.complete hen
      rw [Fabric.between_of_queue_eq_nil hqueue, List.append_nil] at hwhole
      exact hwhole
    · have hunmet : meeting? speaker hearer log = none := by
        refine List.find?_range_eq_none.2 fun n _ => ?_
        rw [hapart _ (List.take_prefix n log)]
        rfl
      have hprefix := hrecounts.begins
      rw [history_of_none hunmet] at hprefix
      exact List.prefix_nil.1 hprefix
    · exact count_removed_le_of_prefix_history hchronicled.orderly
        (hfront.trans hrecounts.begins) subject
    · have hhistory := history_eq_of_isFarewell hlast (hfront.trans hrecounts.begins)
      have hprefix := hrecounts.begins
      rw [hhistory] at hprefix
      exact hprefix.eq_of_length_le hfront.length_le

/-- The server hears all that the peer has to tell: itself, and its two writers. -/
theorem heard_of_peer : ∃ log, withPeer.site.HasChronicle log ∧
    withPeer.site.heard ⟨1⟩ ⟨2⟩ = history ⟨1⟩ ⟨2⟩ log ∧
    (history ⟨1⟩ ⟨2⟩ log).map (·.status) = [.discovered, .discovered, .discovered] := by
  have hd : withPeer.Reachable := ⟨_, _, _, run_performAll _ _⟩
  obtain ⟨_, ⟨log, hlog⟩, hall⟩ := hd.heard_prefix_history
  have hheard := (hall log hlog ⟨1⟩ ⟨2⟩ (by decide)).2.1 (by cbv) (by cbv)
  refine ⟨log, hlog, hheard, ?_⟩
  rw [← hheard]
  cbv

end Deployment

/-- A participant that is closed and then deleted departs once, and does nothing in between. -/
example (p : Profile) : history ⟨1⟩ ⟨2⟩
    [.joined ⟨1⟩ 1 p false, .joined ⟨2⟩ 1 p true, .did ⟨1⟩ .changeQos, .did ⟨1⟩ .close,
      .did ⟨1⟩ .changeQos, .did ⟨1⟩ .delete] =
    [⟨.discovered, .participant ⟨1⟩ p⟩, ⟨.changedQos, .participant ⟨1⟩ p⟩,
      ⟨.removed, .participant ⟨1⟩ p⟩] := rfl

end Rendezvous
