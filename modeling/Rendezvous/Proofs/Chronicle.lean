import Mathlib.Data.List.Range
import Rendezvous.Proofs.Accounts

/-!
# Chronicles

A chronicle tells who joined a fabric and what each participant did there, in the order in
which it happened. From it alone follows where a participant stands at any moment, and what
one participant is to hear of another: nothing unless both take part in one domain at the
same time; from then on all that is there and every deed, up to the departure. Main
statements: what is to be heard grows with the chronicle, entry by entry; it ends with the
departure; and at no moment does it remove what it has not shown.
-/

namespace Rendezvous

inductive Happening where
  | joined (h : Handle) (domain : UInt32) (profile : Profile) (listens : Bool)
  | did (h : Handle) (deed : Deed)
  deriving DecidableEq, Repr

def Happening.participant : Happening → Handle
  | .joined h _ _ _ => h
  | .did h _ => h

/-- Where a participant stands: it has not joined yet, or takes part, or takes part no more. -/
inductive Standing where
  | unknown
  | present (x : Presence)
  | departed
  deriving DecidableEq, Repr

namespace Standing

def ofOption : Option Presence → Standing
  | none => .departed
  | some x => .present x

def next : Standing → Happening → Standing
  | .unknown, .joined _ domain profile listens => .present ⟨domain, profile, listens, []⟩
  | .present x, .did _ deed => ofOption (x.after? deed)
  | st, _ => st

/-- Whether both take part in one domain, and the second one listens. -/
def meets : Standing → Standing → Bool
  | .present x, .present y => x.domain == y.domain && y.listens
  | _, _ => false

theorem meets_eq_true {st st' : Standing} :
    st.meets st' = true ↔ ∃ x y, st = .present x ∧ st' = .present y ∧ x.domain = y.domain ∧
      y.listens = true := by
  cases st <;> cases st' <;> simp [meets]

end Standing

def standing (k : Handle) (log : List Happening) : Standing :=
  (log.filter (·.participant == k)).foldl Standing.next .unknown

def deeds (k : Handle) (log : List Happening) : List Deed :=
  log.filterMap fun
    | .did h deed => if h = k then some deed else none
    | .joined _ _ _ _ => none

def together (speaker hearer : Handle) (log : List Happening) : Bool :=
  (standing speaker log).meets (standing hearer log)

/-- How far a chronicle goes until two participants first meet. -/
def meeting? (speaker hearer : Handle) (log : List Happening) : Option Nat :=
  (List.range (log.length + 1)).find? fun n => together speaker hearer (log.take n)

/-- What a participant is to hear of another one: nothing unless they meet, and from then on all
that is there of it and all that it does. -/
def history (speaker hearer : Handle) (log : List Happening) : List Notification :=
  match meeting? speaker hearer log with
  | none => []
  | some n =>
      match standing speaker (log.take n) with
      | .present x => x.introduction speaker ++ x.account speaker (deeds speaker (log.drop n))
      | _ => []

/-! ## Where a participant stands -/

theorem standing_concat (log : List Happening) (e : Happening) {k : Handle}
    (h : e.participant = k) : standing k (log ++ [e]) = (standing k log).next e := by
  unfold standing
  rw [List.filter_append, List.foldl_append]
  simp [h]

theorem standing_concat_of_ne (log : List Happening) (e : Happening) {k : Handle}
    (h : e.participant ≠ k) : standing k (log ++ [e]) = standing k log := by
  unfold standing
  rw [List.filter_append, List.foldl_append]
  simp [h]

theorem deeds_append (k : Handle) (log more : List Happening) :
    deeds k (log ++ more) = deeds k log ++ deeds k more := List.filterMap_append

theorem standing_append_of_departed {k : Handle} {log : List Happening}
    (h : standing k log = .departed) (more : List Happening) :
    standing k (log ++ more) = .departed := by
  unfold standing at h ⊢
  rw [List.filter_append, List.foldl_append, h]
  generalize more.filter (·.participant == k) = entries
  induction entries with
  | nil => rfl
  | cons e entries ih => exact ih

theorem standing_append_of_present {k : Handle} {log : List Happening} {x : Presence}
    (h : standing k log = .present x) (more : List Happening) :
    standing k (log ++ more) = .ofOption ((deeds k more).foldlM Presence.after? x) := by
  induction more generalizing log x with
  | nil => rw [List.append_nil, h]; rfl
  | cons e more ih =>
      have hsplit : log ++ e :: more = (log ++ [e]) ++ more := by simp
      rw [hsplit]
      by_cases hk : e.participant = k
      · have hnext := standing_concat log e hk
        rw [h] at hnext
        cases e with
        | joined k' domain profile listens => exact ih hnext
        | did k' deed =>
            have hdeeds : deeds k (.did k' deed :: more) = deed :: deeds k more :=
              List.filterMap_cons_some (if_pos hk)
            rw [hdeeds, List.foldlM_cons]
            simp only [Standing.next] at hnext
            cases hx : x.after? deed with
            | none =>
                rw [hx] at hnext
                exact standing_append_of_departed hnext more
            | some y =>
                rw [hx] at hnext
                exact ih hnext
      · have hdeeds : deeds k (e :: more) = deeds k more := by
          cases e with
          | joined k' domain profile listens => rfl
          | did k' deed => exact List.filterMap_cons_none (if_neg hk)
        rw [hdeeds]
        exact ih ((standing_concat_of_ne log e hk).trans h)

/-! ## Where two participants meet -/

section Meeting

variable {speaker hearer : Handle} {log : List Happening}

theorem meeting?_concat (speaker hearer : Handle) (log : List Happening) (e : Happening) :
    meeting? speaker hearer (log ++ [e]) = (meeting? speaker hearer log).or
      (if together speaker hearer (log ++ [e]) then some (log.length + 1) else none) := by
  have hfirst : (List.range (log.length + 1)).find?
        (fun n => together speaker hearer ((log ++ [e]).take n)) =
      meeting? speaker hearer log := by
    rw [meeting?, ← List.head?_filter, ← List.head?_filter]
    refine congrArg List.head? (List.filter_congr fun n hn => ?_)
    have hle : n ≤ log.length := by
      have := List.mem_range.1 hn
      omega
    rw [List.take_append_of_le_length hle]
  have hwhole : (log ++ [e]).take (log.length + 1) = log ++ [e] := by
    apply List.take_of_length_le
    simp
  rw [← hfirst, meeting?, List.length_append, List.length_singleton, List.range_succ,
    List.find?_append, List.find?_singleton, hwhole]

theorem together_of_meeting? {n : Nat} (h : meeting? speaker hearer log = some n) :
    n ≤ log.length ∧ together speaker hearer (log.take n) = true := by
  have hmem := List.mem_range.1 (List.mem_of_find?_eq_some h)
  have hfound := List.find?_range_eq_some.1 h
  exact ⟨by omega, hfound.1⟩

theorem isSome_meeting? (h : together speaker hearer log = true) :
    (meeting? speaker hearer log).isSome = true := by
  refine List.find?_isSome.2 ⟨log.length, List.mem_range.2 (by omega), ?_⟩
  rw [List.take_length]
  exact h

/-- Who was present once has the same face for as long as it is present. -/
theorem sameFace_of_take {k : Handle} {n : Nat} {x y : Presence}
    (hx : standing k (log.take n) = .present x) (hy : standing k log = .present y) :
    x.SameFace y := by
  have hrest := standing_append_of_present hx (log.drop n)
  rw [List.take_append_drop, hy] at hrest
  cases hfold : (deeds k (log.drop n)).foldlM Presence.after? x with
  | none =>
      rw [hfold] at hrest
      cases hrest
  | some z =>
      rw [hfold] at hrest
      cases hrest
      exact Presence.sameFace_of_foldlM hfold

/-- Two participants that have met are on one domain for as long as both are present. -/
theorem together_of_present {n : Nat} (h : meeting? speaker hearer log = some n)
    {x y : Presence} (hx : standing speaker log = .present x)
    (hy : standing hearer log = .present y) : together speaker hearer log = true := by
  obtain ⟨x₀, y₀, hx₀, hy₀, hdomain, hlistens⟩ :=
    Standing.meets_eq_true.1 (together_of_meeting? h).2
  have hfx := sameFace_of_take hx₀ hx
  have hfy := sameFace_of_take hy₀ hy
  refine Standing.meets_eq_true.2 ⟨x, y, hx, hy, ?_, hfy.listens.trans hlistens⟩
  rw [hfx.domain, hfy.domain]
  exact hdomain

theorem listens_of_meeting? {n : Nat} (h : meeting? speaker hearer log = some n) {y : Presence}
    (hy : standing hearer log = .present y) : y.listens = true := by
  obtain ⟨_, y₀, _, hy₀, _, hlistens⟩ := Standing.meets_eq_true.1 (together_of_meeting? h).2
  exact (sameFace_of_take hy₀ hy).listens.trans hlistens

/-- Nobody meets a participant that has not joined yet. -/
theorem meeting?_of_unknown
    (h : standing speaker log = .unknown ∨ standing hearer log = .unknown) :
    meeting? speaker hearer log = none := by
  cases hn : meeting? speaker hearer log with
  | none => rfl
  | some n =>
      obtain ⟨x, y, hx, hy, _⟩ := Standing.meets_eq_true.1 (together_of_meeting? hn).2
      have hnot : ∀ {k : Handle} {z : Presence}, standing k (log.take n) = .present z →
          standing k log ≠ .unknown := by
        intro k z hz hunknown
        have hrest := standing_append_of_present hz (log.drop n)
        rw [List.take_append_drop, hunknown] at hrest
        cases hfold : (deeds k (log.drop n)).foldlM Presence.after? z <;>
          rw [hfold] at hrest <;> cases hrest
      rcases h with h | h
      · exact absurd h (hnot hx)
      · exact absurd h (hnot hy)

/-- Nobody meets by a deed. -/
theorem together_of_did {k : Handle} {deed : Deed}
    (h : together speaker hearer (log ++ [.did k deed]) = true) :
    together speaker hearer log = true := by
  have hbefore : ∀ {k' : Handle} {y : Presence},
      standing k' (log ++ [.did k deed]) = .present y →
        ∃ x, standing k' log = .present x ∧ x.SameFace y := by
    intro k' y hy
    by_cases hk : k = k'
    · have hnext : standing k' (log ++ [.did k deed]) = (standing k' log).next (.did k deed) :=
        standing_concat log _ hk
      rw [hy] at hnext
      cases hst : standing k' log with
      | unknown =>
          rw [hst] at hnext
          cases hnext
      | departed =>
          rw [hst] at hnext
          cases hnext
      | present x =>
          rw [hst, Standing.next] at hnext
          cases hx : x.after? deed with
          | none =>
              rw [hx] at hnext
              cases hnext
          | some z =>
              rw [hx] at hnext
              cases hnext
              exact ⟨x, rfl, Presence.sameFace_of_after? hx⟩
    · have hsame : standing k' (log ++ [.did k deed]) = standing k' log :=
        standing_concat_of_ne log _ hk
      exact ⟨y, hsame.symm.trans hy, rfl, rfl, rfl⟩
  obtain ⟨x, y, hx, hy, hdomain, hlistens⟩ := Standing.meets_eq_true.1 h
  obtain ⟨x₀, hx₀, hfx⟩ := hbefore hx
  obtain ⟨y₀, hy₀, hfy⟩ := hbefore hy
  refine Standing.meets_eq_true.2 ⟨x₀, y₀, hx₀, hy₀, ?_, hfy.listens.symm.trans hlistens⟩
  rw [← hfx.domain, ← hfy.domain]
  exact hdomain

/-! ## What is to be heard -/

theorem history_of_none (h : meeting? speaker hearer log = none) :
    history speaker hearer log = [] := by
  simp only [history, h]

theorem history_of_meeting {n : Nat} (h : meeting? speaker hearer log = some n) :
    ∃ x, standing speaker (log.take n) = .present x ∧
      standing speaker log =
        .ofOption ((deeds speaker (log.drop n)).foldlM Presence.after? x) ∧
      history speaker hearer log =
        x.introduction speaker ++ x.account speaker (deeds speaker (log.drop n)) := by
  obtain ⟨x, _, hx, _⟩ := Standing.meets_eq_true.1 (together_of_meeting? h).2
  have hnow := standing_append_of_present hx (log.drop n)
  rw [List.take_append_drop] at hnow
  refine ⟨x, hx, hnow, ?_⟩
  simp only [history, h, hx]

/-- What an entry adds to what is heard of a participant by one that has met it. -/
def Happening.told (speaker : Handle) (st : Standing) : Happening → List Notification
  | .did h deed =>
      match st with
      | .present x => if h = speaker then x.words speaker deed else []
      | _ => []
  | .joined _ _ _ _ => []

def Standing.introduction (st : Standing) (h : Handle) : List Notification :=
  match st with
  | .present x => x.introduction h
  | _ => []

theorem history_concat (speaker hearer : Handle) (log : List Happening) (e : Happening) :
    history speaker hearer (log ++ [e]) = history speaker hearer log ++
      if (meeting? speaker hearer log).isSome then e.told speaker (standing speaker log)
      else if together speaker hearer (log ++ [e]) then
        (standing speaker (log ++ [e])).introduction speaker
      else [] := by
  have hmeet := meeting?_concat speaker hearer log e
  cases hn : meeting? speaker hearer log with
  | none =>
      rw [history_of_none hn, history, hmeet, hn, Option.none_or]
      by_cases htogether : together speaker hearer (log ++ [e]) = true
      · obtain ⟨x, y, hx, _⟩ := Standing.meets_eq_true.1 htogether
        have hwhole : (log ++ [e]).take (log.length + 1) = log ++ [e] := by
          apply List.take_of_length_le
          simp
        have hnothing : (log ++ [e]).drop (log.length + 1) = [] := by
          apply List.drop_of_length_le
          simp
        simp [htogether, hwhole, hnothing, hx, Standing.introduction, deeds, Presence.account]
      · simp [htogether]
  | some n =>
      have hle := (together_of_meeting? hn).1
      obtain ⟨x, hx, hnow, hhistory⟩ := history_of_meeting hn
      rw [hhistory, history, hmeet, hn, Option.some_or]
      simp only
      rw [List.take_append_of_le_length hle, List.drop_append_of_le_length hle, hx, hnow]
      simp only [deeds_append, Presence.account_append, Option.isSome_some, if_true,
        List.append_assoc]
      congr 2
      cases (deeds speaker (log.drop n)).foldlM Presence.after? x with
      | none => cases e <;> rfl
      | some y =>
          cases e with
          | joined k domain profile listens => rfl
          | did k deed =>
              by_cases hk : k = speaker
              · have hdeeds : deeds speaker [.did k deed] = [deed] := by simp [deeds, hk]
                simp only [hdeeds, Presence.account, Happening.told, Standing.ofOption, if_pos hk]
                cases y.after? deed <;> exact List.append_nil _
              · have hdeeds : deeds speaker [.did k deed] = [] := by simp [deeds, hk]
                simp only [hdeeds, Presence.account, Happening.told, Standing.ofOption, if_neg hk]

/-- A deed that there is no word of leaves the history as it was. -/
theorem history_did_eq {speaker hearer k : Handle} {log : List Happening} {deed : Deed}
    (h : (meeting? speaker hearer log).isSome = true →
      (Happening.did k deed).told speaker (standing speaker log) = []) :
    history speaker hearer (log ++ [.did k deed]) = history speaker hearer log := by
  rw [history_concat]
  by_cases hmet : (meeting? speaker hearer log).isSome = true
  · rw [if_pos hmet, h hmet, List.append_nil]
  · have hapart : together speaker hearer (log ++ [.did k deed]) ≠ true :=
      fun hnow => hmet (isSome_meeting? (together_of_did hnow))
    rw [if_neg hmet, if_neg hapart, List.append_nil]

theorem history_append_grows (speaker hearer : Handle) (log more : List Happening) :
    history speaker hearer log <+: history speaker hearer (log ++ more) := by
  induction more generalizing log with
  | nil => simp
  | cons e more ih =>
      have hsplit : log ++ e :: more = (log ++ [e]) ++ more := by simp
      rw [hsplit]
      apply List.IsPrefix.trans _ (ih (log ++ [e]))
      rw [history_concat]
      exact List.prefix_append _ _

/-- Nothing is to be heard of a participant after the word of its departure. -/
theorem history_eq_of_isFarewell {front : List Notification} {last : Notification}
    (hlast : Presence.IsFarewell speaker last)
    (hfront : front ++ [last] <+: history speaker hearer log) :
    history speaker hearer log = front ++ [last] := by
  cases hn : meeting? speaker hearer log with
  | none =>
      rw [history_of_none hn] at hfront
      exact absurd (List.prefix_nil.1 hfront) (by simp)
  | some n =>
      obtain ⟨x, _, _, hhistory⟩ := history_of_meeting hn
      rw [hhistory] at hfront ⊢
      obtain ⟨hstatus, profile, hsubject⟩ := hlast
      have hnot : last ∉ x.introduction speaker := by
        rintro hmem
        rcases List.mem_cons.1 hmem with rfl | hmem
        · cases hstatus
        · obtain ⟨e, _, rfl⟩ := List.mem_map.1 hmem
          cases hstatus
      rcases List.prefix_or_prefix_of_prefix hfront (List.prefix_append _ _) with hle | hle
      · exact absurd (hle.subset (List.mem_append_right _ List.mem_cons_self)) hnot
      · rcases List.prefix_concat_iff.1 hle with heq | ⟨front', rfl⟩
        · rw [heq] at hnot
          exact absurd (List.mem_append_right _ List.mem_cons_self) hnot
        · rw [List.append_assoc, List.prefix_append_right_inj] at hfront
          rw [Presence.account_eq_of_isFarewell ⟨hstatus, profile, hsubject⟩ hfront,
            List.append_assoc]

theorem tellOf_removed_mem_history (hmet : (meeting? speaker hearer log).isSome = true)
    (hgone : ∀ x, standing speaker log ≠ .present x) :
    ∃ profile, ⟨.removed, .participant speaker profile⟩ ∈ history speaker hearer log := by
  obtain ⟨n, hn⟩ := Option.isSome_iff_exists.1 hmet
  obtain ⟨x, _, hnow, hhistory⟩ := history_of_meeting hn
  cases hfold : (deeds speaker (log.drop n)).foldlM Presence.after? x with
  | some y =>
      rw [hfold] at hnow
      exact absurd hnow (hgone y)
  | none =>
      refine ⟨x.profile, ?_⟩
      rw [hhistory]
      exact List.mem_append_right _ (Presence.tellOf_removed_mem_account hfold)

def Orderly (log : List Happening) : Prop :=
  ∀ past k e x, past ++ [.did k (.withdraw e)] <+: log → standing k past = .present x →
    e ∈ x.entities

theorem orderly_deeds {k : Handle} {before rest : List Happening} {x : Presence}
    (h : Orderly (before ++ rest)) (hx : standing k before = .present x) :
    x.Orderly (deeds k rest) := by
  induction rest generalizing before x with
  | nil => trivial
  | cons e rest ih =>
      have hsplit : before ++ e :: rest = (before ++ [e]) ++ rest := by simp
      have hrest : ∀ {y}, standing k (before ++ [e]) = .present y → y.Orderly (deeds k rest) := by
        intro y hy
        rw [hsplit] at h
        exact ih h hy
      by_cases hk : e.participant = k
      · have hnext := standing_concat before e hk
        rw [hx] at hnext
        cases e with
        | joined k' domain profile listens => exact hrest hnext
        | did k' deed =>
            obtain rfl : k' = k := hk
            have hdeeds : deeds k' (.did k' deed :: rest) = deed :: deeds k' rest :=
              List.filterMap_cons_some (if_pos rfl)
            rw [hdeeds]
            refine ⟨fun e he => ?_, fun y hy => ?_⟩
            · subst he
              apply h before k' e x _ hx
              rw [hsplit]
              exact List.prefix_append _ _
            · simp only [Standing.next, hy] at hnext
              exact hrest hnext
      · have hdeeds : deeds k (e :: rest) = deeds k rest := by
          cases e with
          | joined k' domain profile listens => rfl
          | did k' deed => exact List.filterMap_cons_none (if_neg hk)
        rw [hdeeds]
        exact hrest ((standing_concat_of_ne before e hk).trans hx)

/-- At no moment was anything heard to be removed more often than it was discovered. -/
theorem count_removed_le_of_prefix_history (horderly : Orderly log) {front : List Notification}
    (hfront : front <+: history speaker hearer log) (subject : Subject) :
    front.count ⟨.removed, subject⟩ ≤ front.count ⟨.discovered, subject⟩ := by
  cases hn : meeting? speaker hearer log with
  | none =>
      rw [history_of_none hn] at hfront
      rw [List.prefix_nil.1 hfront]
      exact Nat.le_refl _
  | some n =>
      obtain ⟨x, hx, _, hhistory⟩ := history_of_meeting hn
      have hdeeds : x.Orderly (deeds speaker (log.drop n)) := by
        apply orderly_deeds _ hx
        rw [List.take_append_drop]
        exact horderly
      rw [hhistory] at hfront
      have hnone : (x.introduction speaker).count ⟨.removed, subject⟩ = 0 := by
        refine List.count_eq_zero.2 fun hmem => ?_
        rcases List.mem_cons.1 hmem with heq | hmem
        · cases heq
        · obtain ⟨e, _, heq⟩ := List.mem_map.1 hmem
          cases heq
      rcases List.prefix_or_prefix_of_prefix hfront (List.prefix_append _ _) with hle | ⟨rest, rfl⟩
      · have hcount := hle.sublist.count_le ⟨.removed, subject⟩
        omega
      · rw [List.prefix_append_right_inj] at hfront
        have hcount := Presence.count_removed_le_of_prefix_account hdeeds hfront subject
        rw [List.count_append, List.count_append, Presence.count_discovered_introduction]
        omega

end Meeting

end Rendezvous
