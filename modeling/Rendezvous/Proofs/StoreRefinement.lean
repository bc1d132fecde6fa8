import Rendezvous.Proofs.ReliableStore

/-!
# Records in a folder and in memory

What is kept for a domain is told by the requests alone: the last one that saves or clears
its record decides. Main statement: a store in a vacant folder answers every sequence of
requests as one in memory does, and after each of them the folder has one file for each
record that is kept, and nothing else.
-/

namespace Rendezvous.Store

open Files

inductive Request where
  | load (domain : UInt32)
  | save (record : ServerRecord)
  | clear (domain : UInt32)

inductive Answer where
  | found (result : Except StoreError (Option ServerRecord))
  | done (result : Except StoreError Unit)

def handle (store : Store) (s : Storage) : Request → Storage × Answer
  | .load domain => (s, .found (store.load s domain))
  | .save record =>
      let (s, result) := store.save s record
      (s, .done result)
  | .clear domain =>
      let (s, result) := store.clear s domain
      (s, .done result)

def handleAll (store : Store) (s : Storage) : List Request → Storage × List Answer
  | [] => (s, [])
  | request :: rest =>
      let (s, answer) := store.handle s request
      let (s, answers) := store.handleAll s rest
      (s, answer :: answers)

/-! ## What requests tell -/

namespace Request

/-- What a request leaves to be kept for a domain, if it is about that domain. -/
def leaves? (domain : UInt32) : Request → Option (Option ServerRecord)
  | .load _ => none
  | .save record => if domain = record.domain then some (some record) else none
  | .clear domain' => if domain = domain' then some none else none

def answer (stored : UInt32 → Option ServerRecord) : Request → Answer
  | .load domain => .found (.ok (stored domain))
  | .save _ => .done (.ok ())
  | .clear _ => .done (.ok ())

def update (stored : UInt32 → Option ServerRecord) (request : Request) (domain : UInt32) :
    Option ServerRecord := (request.leaves? domain).getD (stored domain)

end Request

/-- What is kept for a domain after some requests: what the last of them about it left. -/
def keptAfter (requests : List Request) (domain : UInt32) : Option ServerRecord :=
  (requests.filterMap (·.leaves? domain)).getLast?.getD none

def answersAfter (past : List Request) : List Request → List Answer
  | [] => []
  | request :: rest => request.answer (keptAfter past) :: answersAfter (past ++ [request]) rest

theorem keptAfter_concat (requests : List Request) (request : Request) :
    keptAfter (requests ++ [request]) = request.update (keptAfter requests) := by
  funext domain
  rw [keptAfter, List.filterMap_append, Request.update, keptAfter]
  cases h : request.leaves? domain with
  | none => simp [h]
  | some left => simp [h]

theorem keptAfter_save (before after : List Request) (record : ServerRecord)
    (h : ∀ request ∈ after, request.leaves? record.domain = none) :
    keptAfter (before ++ .save record :: after) record.domain = some record := by
  have hafter : after.filterMap (·.leaves? record.domain) = [] :=
    List.filterMap_eq_nil_iff.2 h
  have hsave : (Request.save record).leaves? record.domain = some (some record) := if_pos rfl
  rw [keptAfter, List.filterMap_append, List.filterMap_cons, hsave]
  simp [hafter]

/-! ## Stores that keep what they are asked to keep -/

/-- Whether a store answers by what is kept for each domain, as long as its storage stands for
that. -/
structure Obeys (store : Store) (stands : (UInt32 → Option ServerRecord) → Storage → Prop) :
    Prop where
  handle : ∀ {stored s} request, stands stored s →
    (store.handle s request).2 = request.answer stored ∧
      stands (request.update stored) (store.handle s request).1

theorem Obeys.handleAll {store : Store} {stands : (UInt32 → Option ServerRecord) → Storage → Prop}
    (h : store.Obeys stands) {past : List Request} {s : Storage} (hs : stands (keptAfter past) s)
    (requests : List Request) :
    (store.handleAll s requests).2 = answersAfter past requests ∧
      stands (keptAfter (past ++ requests)) (store.handleAll s requests).1 := by
  induction requests generalizing past s with
  | nil => exact ⟨rfl, (List.append_nil past).symm ▸ hs⟩
  | cons request rest ih =>
      obtain ⟨hanswer, hnext⟩ := h.handle request hs
      rw [← keptAfter_concat] at hnext
      obtain ⟨hanswers, hlast⟩ := ih hnext
      rw [List.append_cons]
      refine ⟨?_, hlast⟩
      calc (store.handleAll s (request :: rest)).2
          = (store.handle s request).2 :: (store.handleAll (store.handle s request).1 rest).2 :=
            rfl
        _ = answersAfter past (request :: rest) := by rw [hanswer, hanswers, answersAfter]

theorem obeys_memory :
    Store.memory.Obeys fun stored s => ∀ domain, s.memory.find? domain = stored domain := by
  refine ⟨fun {stored s} request hs => ?_⟩
  cases request with
  | load domain =>
      refine ⟨?_, hs⟩
      rw [Store.handle, load, hs]
      rfl
  | save record =>
      refine ⟨rfl, fun domain => ?_⟩
      rw [Store.handle, save, OrderedMap.find?_insert, hs, Request.update, Request.leaves?]
      split <;> rfl
  | clear domain =>
      refine ⟨rfl, fun domain' => ?_⟩
      rw [Store.handle, clear, OrderedMap.find?_erase, hs, Request.update, Request.leaves?]
      split <;> rfl

/-! ## Records in files -/

/-- Whether a folder has one file for each record that is kept, and nothing else. -/
structure Filed (folder : Path) (p : Place) (stored : UInt32 → Option ServerRecord) (t : Tree) :
    Prop where
  leads : t.Leads folder p
  record : ∀ domain, t.at? (p.child (recordName domain)) =
    (stored domain).map fun record => .file (fileText record).toUTF8
  nothingElse : ∀ name, (∀ domain, name ≠ recordName domain) → t.at? (p.child name) = none

/-- Whether a folder stands for the records that are kept; one that is missing keeps none. -/
inductive Holds (folder : Path) (stored : UInt32 → Option ServerRecord) (t : Tree) : Prop
  | there {p : Place} (filed : Filed folder p stored t)
  | missing (notFound : folder.steps.foldlM t.enter .working = .error .notFound)
      (missing : Missing folder t) (nothing : ∀ domain, stored domain = none)

section Folder

variable {folder : Path} {p : Place} {t : Tree} {stored : UInt32 → Option ServerRecord}

theorem filed_of_empty (hlead : t.Leads folder p) (hempty : ∀ name, t.at? (p.child name) = none)
    (hnothing : ∀ domain, stored domain = none) : Filed folder p stored t where
  leads := hlead
  record domain := by rw [hempty, hnothing, Option.map_none]
  nothingElse name _ := hempty name

theorem Filed.kept (h : Filed folder p stored t) : Kept folder p t where
  leads := h.leads
  record domain e he := by
    rw [h.record] at he
    obtain ⟨record, _, rfl⟩ := Option.map_eq_some_iff.1 he
    exact ⟨_, _, record, rfl, fromUTF8?_toUTF8 _, record.ofString_toJson⟩
  draft domain hat := by
    rw [h.nothingElse _ fun domain' heq => recordName_ne_draftName domain' domain heq.symm] at hat
    cases hat

theorem Filed.loadFile_eq (h : Filed folder p stored t) (hfits : Fits folder) (domain : UInt32) :
    loadFile t (recordPath folder domain) = .ok (stored domain) := by
  have hrecord := h.record domain
  cases hkept : stored domain with
  | none =>
      rw [hkept] at hrecord
      exact loadFile_of_none hfits h.leads hrecord
  | some record =>
      rw [hkept] at hrecord
      exact loadFile_of_record (hfits.record domain) h.leads hrecord (fromUTF8?_toUTF8 _)
        record.ofString_toJson

theorem Filed.save (h : Filed folder p stored t) (record : ServerRecord) :
    Filed folder p ((Request.save record).update stored) (written t p record) where
  leads := h.leads.keeps (h.kept.keepsFolders_written record)
  record domain := by
    rw [at?_written, Request.update, Request.leaves?]
    by_cases hd : domain = record.domain
    · rw [hd, if_pos rfl, if_pos rfl]
      rfl
    · have hother : p.child (recordName domain) ≠ p.child (recordName record.domain) :=
        fun heq => hd (recordName_inj (Place.child_inj.1 heq).2)
      rw [if_neg hother, if_neg (child_record_ne_draft p _ _), if_neg hd, h.record]
      rfl
  nothingElse name hname := by
    have hother : p.child name ≠ p.child (recordName record.domain) :=
      fun heq => hname _ (Place.child_inj.1 heq).2
    rw [at?_written, if_neg hother, h.nothingElse name hname, ite_self]

theorem Filed.clear (h : Filed folder p stored t) (domain : UInt32) :
    Filed folder p ((Request.clear domain).update stored)
      (t.clear (p.child (recordName domain))) where
  leads := h.leads.keeps
    (Tree.keepsFolders_clear (p.isStart_child _) (h.kept.record_ne_folder domain))
  record domain' := by
    rw [Tree.at?_clear (p.isStart_child _), Request.update, Request.leaves?]
    by_cases hd : domain' = domain
    · rw [hd, if_pos rfl, if_pos rfl]
      rfl
    · have hother : p.child (recordName domain') ≠ p.child (recordName domain) :=
        fun heq => hd (recordName_inj (Place.child_inj.1 heq).2)
      rw [if_neg hother, if_neg hd, h.record]
      rfl
  nothingElse name hname := by
    rw [Tree.at?_clear (p.isStart_child _), h.nothingElse name hname, ite_self]

theorem Holds.loadFile_eq (h : Holds folder stored t) (hfits : Fits folder) (domain : UInt32) :
    loadFile t (recordPath folder domain) = .ok (stored domain) := by
  cases h with
  | there filed => exact filed.loadFile_eq hfits domain
  | missing _ missing nothing => rw [missing.loadFile_eq, nothing]

/-- A folder that stands for some records is there once it is made, and still does. -/
theorem Holds.made (h : Holds folder stored t) (hfits : Fits folder) :
    ∃ t' p, t.makeFolders folder = (t', .ok ()) ∧ Filed folder p stored t' := by
  have hshort := hfits.short
  cases h with
  | there filed =>
      exact ⟨t, _, Tree.makeFolders_of_leads filed.leads hfits.noZero (by omega), filed⟩
  | missing _ missing nothing =>
      obtain ⟨t', p, hmade, hlead, hempty⟩ := missing.made
      exact ⟨t', p, hmade, filed_of_empty hlead hempty nothing⟩

theorem obeys_folder (hfits : Fits folder) :
    (Store.folder folder).Obeys fun stored s => Holds folder stored s.files := by
  refine ⟨fun {stored s} request hs => ?_⟩
  cases request with
  | load domain =>
      refine ⟨?_, hs⟩
      rw [Store.handle, load, hs.loadFile_eq hfits]
      rfl
  | save record =>
      obtain ⟨t, p, hmade, hfiled⟩ := hs.made hfits
      have hsave := hfiled.kept.saveFile_eq hfits hmade record
      have hhandle : (Store.folder folder).handle s (.save record) =
          ({ s with files := written t p record }, .done (.ok ())) := by
        simp only [Store.handle, save, hsave]
      rw [hhandle]
      exact ⟨rfl, .there (hfiled.save record)⟩
  | clear domain =>
      cases hs with
      | @there p filed =>
          have hclear := filed.kept.clearFile_eq hfits domain
          have hhandle : (Store.folder folder).handle s (.clear domain) =
              ({ s with files := s.files.clear (p.child (recordName domain)) },
                .done (.ok ())) := by
            simp only [Store.handle, clear, hclear]
          rw [hhandle]
          exact ⟨rfl, .there (filed.clear domain)⟩
      | missing notFound missing nothing =>
          have hhandle : (Store.folder folder).handle s (.clear domain) =
              (s, .done (.ok ())) := by
            simp only [Store.handle, clear, missing.clearFile_eq domain]
          rw [hhandle]
          refine ⟨rfl, .missing notFound missing fun domain' => ?_⟩
          rw [Request.update, Request.leaves?, nothing]
          split <;> rfl

theorem Vacant.holds (h : Vacant folder t) (hfits : Fits folder)
    (hnothing : ∀ domain, stored domain = none) : Holds folder stored t := by
  cases h with
  | empty leads nothing => exact .there (filed_of_empty leads nothing hnothing)
  | missing notFound made leads nothing =>
      exact .missing notFound
        ⟨resolve_recordPath_of_error hfits notFound, _, _, made, leads, nothing⟩ hnothing

end Folder

/-- A store in a vacant folder answers every sequence of requests as a store in memory does,
that is as the requests before have it, and keeps one file for each record. -/
theorem handleAll_folder {folder : Path} {s : Storage} (hfits : Fits folder)
    (hvacant : Vacant folder s.files) (requests : List Request) :
    ((Store.folder folder).handleAll s requests).2 = (memory.handleAll .empty requests).2 ∧
      ((Store.folder folder).handleAll s requests).2 = answersAfter [] requests ∧
      Holds folder (keptAfter requests) ((Store.folder folder).handleAll s requests).1.files ∧
      ∀ before record after, requests = before ++ .save record :: after →
        (∀ request ∈ after, request.leaves? record.domain = none) →
          (Store.folder folder).load ((Store.folder folder).handleAll s requests).1
            record.domain = .ok (some record) := by
  have hfirst : Holds folder (keptAfter []) s.files := hvacant.holds hfits fun _ => rfl
  obtain ⟨hanswers, hholds⟩ := (obeys_folder hfits).handleAll hfirst requests
  have hempty : ∀ domain, Storage.empty.memory.find? domain = keptAfter [] domain := fun _ => rfl
  obtain ⟨hmemory, _⟩ := obeys_memory.handleAll hempty requests
  refine ⟨hanswers.trans hmemory.symm, hanswers, hholds, ?_⟩
  rintro before record after rfl hafter
  have hload := hholds.loadFile_eq hfits record.domain
  rw [List.nil_append, keptAfter_save before after record hafter] at hload
  exact hload

def nestedFolder : Path := .ofString "var/state"

theorem vacant_nestedFolder : Vacant nestedFolder .empty := by
  have hplain : ∀ name ∈ [Name.ofString "var"] ++ [Name.ofString "state"], name.Plain := by
    intro name hname
    simp only [List.cons_append, List.nil_append, List.mem_cons, List.not_mem_nil,
      or_false] at hname
    rcases hname with rfl | rfl
    · exact ⟨by decide, by decide, by decide, by decide, by decide, by decide⟩
    · exact ⟨by decide, by decide, by decide, by decide, by decide, by decide⟩
  have hfolder : Path.joinAll ⟨[]⟩ ([Name.ofString "var"] ++ [Name.ofString "state"]) =
      nestedFolder := by decide
  have hlacks : Tree.empty.Lacks .working ([Name.ofString "var"] ++ [Name.ofString "state"]) := by
    intro rest
    have hdepth := (Place.working.child (Name.ofString "var")).depth_descend rest
    have hstart : ((Place.working.child (Name.ofString "var")).descend rest).isStart = false := by
      rw [Place.isStart, hdepth]
      simp [Place.child]
    rw [Tree.at?, hstart]
    rfl
  have hhere : Tree.empty.Leads ⟨[]⟩ .working := rfl
  rw [← hfolder]
  exact vacant_of_lacks hhere hplain ⟨by decide, by decide⟩ hlacks

def someRecord (domain : UInt32) : ServerRecord :=
  ⟨domain, 4294967295, default, 18446744073709551615⟩

def someRequests : List Request :=
  [.clear 1, .save (someRecord 1), .save (someRecord 0), .load 1, .clear 0, .load 0]

theorem handleAll_nestedFolder :
    Fits nestedFolder ∧ Vacant nestedFolder Storage.empty.files ∧
      ((Store.folder nestedFolder).handleAll .empty someRequests).2 =
        [.done (.ok ()), .done (.ok ()), .done (.ok ()), .found (.ok (some (someRecord 1))),
          .done (.ok ()), .found (.ok none)] ∧
      Holds nestedFolder (keptAfter someRequests)
        ((Store.folder nestedFolder).handleAll .empty someRequests).1.files := by
  have hfits : Fits nestedFolder := ⟨by decide, by decide⟩
  obtain ⟨_, hanswers, hholds, _⟩ :=
    handleAll_folder (s := .empty) hfits vacant_nestedFolder someRequests
  refine ⟨hfits, vacant_nestedFolder, ?_, hholds⟩
  rw [hanswers]
  rfl

end Rendezvous.Store
