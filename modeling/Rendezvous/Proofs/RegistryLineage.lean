import Rendezvous.Proofs.HostBindings

/-!
# Registries, their clones and their pasts

A host keeps registries at numbered places, calls the six setters on them, and copies one
over another, as cloning a registry and taking up a clone again do. The lineage of a
registry is the row of setters called on it and on those that it was copied from, as long
as they were the same. Main statement: what a registry binds to a category is what the last
setter of that category in its lineage left that kept the contract; what is said of a
registry in whatever form tells which categories are bound.
-/

namespace Rendezvous

/-! ## Calls of the setters -/

structure Setting where
  category : Category
  callback : Option Callback
  context : Option String

namespace Setting

def BreaksContract (s : Setting) : Prop :=
  (∃ callback, s.callback = some callback) ∧ s.context = none

/-- What a call leaves bound to a category, if it sets that one and keeps the contract. -/
def leaves? (c : Category) : Setting → Option (Option Binding)
  | ⟨category, none, _⟩ => if category = c then some none else none
  | ⟨category, some callback, some context⟩ =>
      if category = c then some (some ⟨callback, context⟩) else none
  | ⟨_, some _, none⟩ => none

end Setting

namespace Registry

def call (r : Registry) (s : Setting) : Registry × Except BridgeError Unit :=
  match r.set s.category s.callback s.context with
  | .ok r' => (r', .ok ())
  | .error e => (r, .error e)

theorem binding_call (r : Registry) (s : Setting) (c : Category) :
    (r.call s).1.binding c = (s.leaves? c).getD (r.binding c) := by
  have hput (category : Category) (b : Option Binding) : (r.put category b).binding c =
      (if category = c then some b else none).getD (r.binding c) := by
    rw [binding_put]
    by_cases hc : category = c
    · rw [if_pos hc, if_pos hc.symm, Option.getD_some]
    · rw [if_neg hc, if_neg (Ne.symm hc), Option.getD_none]
  obtain ⟨category, callback, context⟩ := s
  cases callback with
  | none => exact hput category none
  | some callback =>
      cases context with
      | none => rfl
      | some context => exact hput category (some ⟨callback, context⟩)

theorem call_of_breaksContract (r : Registry) {s : Setting} (h : s.BreaksContract) :
    r.call s =
      (r, .error (.contractViolation (s.category.name ++ " callback bound without a context"))) := by
  obtain ⟨category, callback, context⟩ := s
  obtain ⟨⟨callback, rfl⟩, rfl⟩ := h
  rfl

theorem call_of_not_breaksContract (r : Registry) {s : Setting} (h : ¬s.BreaksContract) :
    (r.call s).2 = .ok () := by
  obtain ⟨category, callback, context⟩ := s
  cases callback with
  | none => rfl
  | some callback =>
      cases context with
      | none => exact absurd ⟨⟨callback, rfl⟩, rfl⟩ h
      | some context => rfl

end Registry

/-! ## Shelves of registries -/

/-- What a host does with the registries that it keeps. -/
inductive Handling where
  /-- It calls a setter of the registry at a place. -/
  | set (place : Nat) (s : Setting)
  /-- It puts a clone of the registry at `source` in a place. -/
  | clone (source place : Nat)

/-- The place at which it may change something. -/
def Handling.place : Handling → Nat
  | .set place _ => place
  | .clone _ place => place

/-- The registries at their places, all of them empty to begin with. -/
abbrev Shelf := Nat → Registry

namespace Shelf

def initial : Shelf := fun _ => .empty

def handle (shelf : Shelf) : Handling → Shelf
  | .set place s => Function.update shelf place ((shelf place).call s).1
  | .clone source place => Function.update shelf place (shelf source)

def after (past : List Handling) : Shelf := past.foldl handle initial

/-- The setters called on the registry at a place, the latest one in front, after what was
handled since the beginning, the latest in front as well. A copy has the lineage of what it
was made of. -/
def lineageOf : List Handling → Nat → List Setting
  | [], _ => []
  | .set place' s :: earlier, place =>
      if place = place' then s :: lineageOf earlier place else lineageOf earlier place
  | .clone source place' :: earlier, place =>
      lineageOf earlier (if place = place' then source else place)

/-- The setters called in the lineage of the registry at a place, the latest one in front. -/
def lineage (past : List Handling) (place : Nat) : List Setting := lineageOf past.reverse place

/-- What the last setter of a category left that kept the contract, if any did. -/
def lastSet (settings : List Setting) (c : Category) : Option Binding :=
  (settings.findSome? (Setting.leaves? c)).join

theorem lastSet_cons (s : Setting) (settings : List Setting) (c : Category) :
    lastSet (s :: settings) c = (s.leaves? c).getD (lastSet settings c) := by
  rw [lastSet, List.findSome?_cons]
  cases s.leaves? c <;> rfl

theorem after_concat (past : List Handling) (h : Handling) :
    after (past ++ [h]) = (after past).handle h := by
  rw [after, List.foldl_append]
  rfl

theorem lineage_concat (past : List Handling) (h : Handling) (place : Nat) :
    lineage (past ++ [h]) place = lineageOf (h :: past.reverse) place := by
  rw [lineage, List.reverse_concat]

theorem handle_of_ne (shelf : Shelf) {h : Handling} {place : Nat} (hne : h.place ≠ place) :
    shelf.handle h place = shelf place := by
  cases h with
  | set place' s => exact Function.update_of_ne (Ne.symm hne) _ _
  | clone source place' => exact Function.update_of_ne (Ne.symm hne) _ _

theorem binding_after (past : List Handling) (place : Nat) (c : Category) :
    (after past place).binding c = lastSet (lineage past place) c := by
  induction past using List.reverseRecOn generalizing place with
  | nil => exact Registry.binding_empty c
  | append_singleton past h ih =>
      rw [after_concat, lineage_concat]
      cases h with
      | set place' s =>
          rw [handle, lineageOf]
          by_cases hplace : place = place'
          · rw [if_pos hplace, lastSet_cons, ← hplace, Function.update_self,
              Registry.binding_call, ih]
            rfl
          · rw [if_neg hplace, Function.update_of_ne hplace, ih]
            rfl
      | clone source place' =>
          rw [handle, lineageOf]
          by_cases hplace : place = place'
          · rw [if_pos hplace, hplace, Function.update_self, ih]
            rfl
          · rw [if_neg hplace, Function.update_of_ne hplace, ih]
            rfl

/-- What is done at other places leaves a registry as it is. -/
theorem after_append_of_ne (past later : List Handling) {place : Nat}
    (h : ∀ handling ∈ later, handling.place ≠ place) :
    after (past ++ later) place = after past place := by
  induction later using List.reverseRecOn with
  | nil => rw [List.append_nil]
  | append_singleton later handling ih =>
      rw [← List.append_assoc, after_concat,
        handle_of_ne _ (h handling (List.mem_append_right _ (List.mem_singleton_self _)))]
      exact ih fun other hother => h other (List.mem_append_left _ hother)

end Shelf

/-! ## What is said of a registry -/

def Category.fieldName (c : Category) : String :=
  String.ofList (c.name.toList.map fun character => if character = '-' then '_' else character)

namespace Registry

section Descriptions

variable {bound bound' : Category → Bool}

def word (isBound : Bool) : String := if isBound then "true" else "false"

def fieldText (bound : Category → Bool) (c : Category) : String :=
  c.fieldName ++ ": " ++ word (bound c)

def fieldTexts (bound : Category → Bool) (cs : List Category) : String :=
  ", ".intercalate (cs.map (fieldText bound))

/-- The description of a registry that has the categories bound that a function says. -/
def description (bound : Category → Bool) : String :=
  "CallbackRegistry \x7b " ++ fieldTexts bound Category.all ++ " \x7d"

theorem describe_eq (r : Registry) : r.describe = description r.isBound := rfl

theorem word_append_cancel {isBound isBound' : Bool} {rest rest' : String}
    (h : word isBound ++ rest = word isBound' ++ rest') : isBound = isBound' ∧ rest = rest' := by
  have hhead := congrArg (·.toList.head?) h
  simp only [String.toList_append] at hhead
  cases isBound <;> cases isBound'
  case false.false => exact ⟨rfl, String.append_right_inj _ |>.1 h⟩
  case true.true => exact ⟨rfl, String.append_right_inj _ |>.1 h⟩
  all_goals exact absurd (Option.some.inj hhead) (by decide)

theorem fieldText_append_cancel {c : Category} {rest rest' : String}
    (h : fieldText bound c ++ rest = fieldText bound' c ++ rest') :
    bound c = bound' c ∧ rest = rest' := by
  simp only [fieldText, String.append_assoc, String.append_right_inj] at h
  exact word_append_cancel h

/-- The words of a row of fields can be told from its text, whatever stands behind it. -/
theorem fieldTexts_append_cancel (cs : List Category) {rest : String}
    (h : fieldTexts bound cs ++ rest = fieldTexts bound' cs ++ rest) :
    ∀ c ∈ cs, bound c = bound' c := by
  induction cs with
  | nil => exact fun c hc => absurd hc List.not_mem_nil
  | cons c cs ih =>
      cases cs with
      | nil =>
          rw [fieldTexts, fieldTexts, List.map_singleton, List.map_singleton,
            String.intercalate_singleton, String.intercalate_singleton] at h
          exact List.forall_mem_singleton.2 (fieldText_append_cancel h).1
      | cons d cs =>
          have hcons (b : Category → Bool) : fieldTexts b (c :: d :: cs) =
              fieldText b c ++ ", " ++ fieldTexts b (d :: cs) :=
            String.intercalate_cons_cons
          simp only [hcons, String.append_assoc] at h
          obtain ⟨hc, hmore⟩ := fieldText_append_cancel h
          rw [String.append_right_inj] at hmore
          exact List.forall_mem_cons.2 ⟨hc, ih hmore⟩

theorem description_inj : description bound = description bound' ↔ bound = bound' := by
  refine ⟨fun h => funext fun c => ?_, congrArg description⟩
  unfold description at h
  rw [String.append_assoc, String.append_assoc, String.append_right_inj] at h
  exact fieldTexts_append_cancel Category.all h c (Category.mem_all c)

end Descriptions

/-- What is said of a registry, in whatever form, agrees on which categories are bound. -/
structure Agrees (r : Registry) : Prop where
  accessors : [r.participantDiscovered, r.participantRemoved, r.readerDiscovered,
    r.readerRemoved, r.writerDiscovered, r.writerRemoved] = Category.all.map r.binding
  isBound : ∀ c, r.isBound c = true ↔ ∃ b, r.binding c = some b
  describe : ∀ bound, r.describe = description bound ↔ ∀ c, r.isBound c = bound c

theorem agrees (r : Registry) : r.Agrees where
  accessors := rfl
  isBound c := Option.isSome_iff_exists
  describe bound := by rw [describe_eq, description_inj, funext_iff]

end Registry

/-! ## Six independent slots -/

namespace Shelf

theorem after_clone (past : List Handling) (original copy : Nat) :
    after (past ++ [.clone original copy]) original = after past original ∧
      after (past ++ [.clone original copy]) copy = after past original := by
  rw [after_concat, handle]
  refine ⟨?_, Function.update_self _ _ _⟩
  by_cases h : original = copy
  · rw [h, Function.update_self]
  · exact Function.update_of_ne h _ _

theorem after_set_of_breaksContract (past : List Handling) (place : Nat) {s : Setting}
    (h : s.BreaksContract) : after (past ++ [.set place s]) = after past := by
  rw [after_concat, handle, Registry.call_of_breaksContract _ h]
  exact Function.update_eq_self _ _

/-- A registry binds to each category what its lineage says of that category. A setter fails
if and only if it breaks the contract, and then changes nothing; an original and its clone do
not change with each other. -/
theorem slots_follow_lineages (past : List Handling) :
    (∀ place c, (after past place).binding c = lastSet (lineage past place) c) ∧
      (∀ place, (after past place).Agrees) ∧
      (∀ (place : Nat) (s : Setting), (s.BreaksContract ↔ ((after past place).call s).2 ≠ .ok ()) ∧
        (s.BreaksContract → after (past ++ [.set place s]) = after past ∧
          ((after past place).call s).2 = .error (.contractViolation
            (s.category.name ++ " callback bound without a context")))) ∧
      ∀ (original copy : Nat) (later : List Handling),
        ((∀ h ∈ later, h.place ≠ original) →
          after (past ++ [.clone original copy] ++ later) original = after past original) ∧
        ((∀ h ∈ later, h.place ≠ copy) →
          after (past ++ [.clone original copy] ++ later) copy = after past original) := by
  refine ⟨fun place c => binding_after past place c, fun place => Registry.agrees _, ?_, ?_⟩
  · refine fun place s => ⟨⟨fun h => ?_, fun h => ?_⟩, fun h => ?_⟩
    · rw [Registry.call_of_breaksContract _ h]
      exact nofun
    · exact Classical.byContradiction fun hkeeps => h (Registry.call_of_not_breaksContract _ hkeeps)
    · exact ⟨after_set_of_breaksContract past place h,
        congrArg Prod.snd (Registry.call_of_breaksContract _ h)⟩
  · intro original copy later
    obtain ⟨horiginal, hcopy⟩ := after_clone past original copy
    exact ⟨fun h => (after_append_of_ne _ later h).trans horiginal,
      fun h => (after_append_of_ne _ later h).trans hcopy⟩

def bindsOnce : List Handling :=
  [.set 0 ⟨.writerDiscovered, some (.native "first" .yields), some "first context"⟩]

def contextless : Setting := ⟨.writerDiscovered, some (.native "second" .yields), none⟩

/-- The original keeps its binding, whatever is done to its clone. -/
theorem original_keeps_binding :
    contextless.BreaksContract ∧ after (bindsOnce ++ [.set 0 contextless]) = after bindsOnce ∧
      after (bindsOnce ++ [.clone 0 1] ++
        [.set 1 ⟨.writerDiscovered, none, none⟩, .set 1 contextless]) 0 = after bindsOnce 0 := by
  have hbreaks : contextless.BreaksContract := ⟨⟨_, rfl⟩, rfl⟩
  obtain ⟨-, -, hset, hclone⟩ := slots_follow_lineages bindsOnce
  exact ⟨hbreaks, ((hset 0 contextless).2 hbreaks).1, (hclone 0 1 _).1 (by decide)⟩

end Shelf

end Rendezvous
