import Rendezvous.Proofs.FolderMaking
import Rendezvous.Proofs.RecordFiles

/-!
# Stores that do not fail

A store that does not fail keeps one record for each domain: a record saved is there, one
that was cleared is gone, and the records of other domains stay as they were. What it
keeps them in may be anything that it can work with. Main statements: records in memory
are kept so, and so are records in a folder that is there or can be made, in which nothing
else stands under the names that records go by.
-/

namespace Rendezvous.Store

open Files

/-- Whether a store never fails on what it keeps its records in. -/
structure Reliable (store : Store) (good : Storage → Prop) : Prop where
  load : ∀ {s} domain, good s → ∃ r, store.load s domain = .ok r
  save : ∀ {s} record, good s → ∃ s', store.save s record = (s', .ok ()) ∧ good s' ∧
    ∀ domain, store.load s' domain =
      if domain = record.domain then .ok (some record) else store.load s domain
  clear : ∀ {s} domain, good s → ∃ s', store.clear s domain = (s', .ok ()) ∧ good s' ∧
    ∀ domain', store.load s' domain' =
      if domain' = domain then .ok none else store.load s domain'

theorem reliable_memory : Reliable .memory fun _ => True where
  load domain _ := ⟨_, rfl⟩
  save record _ := by
    refine ⟨_, rfl, trivial, fun domain => ?_⟩
    simp only [Store.load, OrderedMap.find?_insert]
    split <;> rfl
  clear domain _ := by
    refine ⟨_, rfl, trivial, fun domain' => ?_⟩
    simp only [Store.load, OrderedMap.find?_erase]
    split <;> rfl

/-! ## Records in a folder -/

structure Missing (folder : Path) (t : Tree) : Prop where
  absent : ∀ domain, t.resolve (recordPath folder domain) = .error .notFound
  made : ∃ t' p, t.makeFolders folder = (t', .ok ()) ∧ t'.Leads folder p ∧
    ∀ name, t'.at? (p.child name) = none

structure Usable (folder : Path) (s : Storage) : Prop where
  fits : Fits folder
  there : (∃ p, Kept folder p s.files) ∨ Missing folder s.files

section Folder

variable {folder : Path} {t : Tree}

theorem Missing.loadFile_eq (h : Missing folder t) (domain : UInt32) :
    loadFile t (recordPath folder domain) = .ok none := by
  have hread : t.readText (recordPath folder domain) = .error .notFound := by
    simp only [Tree.readText, Tree.read, h.absent domain, bind, Except.bind]
  rw [loadFile, hread]

theorem Missing.clearFile_eq (h : Missing folder t) (domain : UInt32) :
    clearFile t (recordPath folder domain) = (t, .ok ()) := by
  have hremove : t.removeFile (recordPath folder domain) = .error .notFound := by
    simp only [Tree.removeFile, h.absent domain, bind, Except.bind]
  simp only [clearFile, hremove]

end Folder

/-- A folder that is usable is there once it is made, with the records that it had. -/
theorem Usable.made {folder : Path} {s : Storage} (h : Usable folder s) :
    ∃ t p, s.files.makeFolders folder = (t, .ok ()) ∧ Kept folder p t ∧
      ∀ domain, loadFile t (recordPath folder domain) =
        loadFile s.files (recordPath folder domain) := by
  have hshort := h.fits.short
  rcases h.there with ⟨p, hkept⟩ | hmissing
  · refine ⟨s.files, p, ?_, hkept, fun _ => rfl⟩
    exact Tree.makeFolders_of_leads hkept.leads h.fits.noZero (by omega)
  · obtain ⟨t, p, hmade, hlead, hempty⟩ := hmissing.made
    refine ⟨t, p, hmade, kept_of_empty hlead hempty, fun domain => ?_⟩
    rw [loadFile_of_none h.fits hlead (hempty _), hmissing.loadFile_eq]

/-! ## Folders that can keep records -/

/-- Whether a folder has nothing in it: it is there already, or it is not found and there once
it is made. -/
inductive Vacant (folder : Path) (t : Tree) : Prop
  | empty {p : Place} (leads : t.Leads folder p) (nothing : ∀ name, t.at? (p.child name) = none)
  | missing {t' : Tree} {p : Place}
      (notFound : folder.steps.foldlM t.enter .working = .error .notFound)
      (made : t.makeFolders folder = (t', .ok ())) (leads : t'.Leads folder p)
      (nothing : ∀ name, t'.at? (p.child name) = none)

theorem resolve_recordPath_of_error {folder : Path} (hfits : Fits folder) {t : Tree} {e : Error}
    (h : folder.steps.foldlM t.enter .working = .error e) (domain : UInt32) :
    t.resolve (recordPath folder domain) = .error e := by
  have hresolve := Tree.resolve_join_eq t (hfits.record domain)
  rw [h] at hresolve
  exact hresolve

theorem Vacant.kept_or_missing {folder : Path} {t : Tree} (hfits : Fits folder)
    (h : Vacant folder t) : (∃ p, Kept folder p t) ∨ Missing folder t := by
  cases h with
  | empty leads nothing => exact .inl ⟨_, kept_of_empty leads nothing⟩
  | missing notFound made leads nothing =>
      exact .inr ⟨resolve_recordPath_of_error hfits notFound, _, _, made, leads, nothing⟩

theorem Vacant.usable {folder : Path} {s : Storage} (hfits : Fits folder)
    (h : Vacant folder s.files) : Usable folder s := ⟨hfits, h.kept_or_missing hfits⟩

/-- A folder of which nothing is there behind one that is there is vacant. -/
theorem vacant_of_lacks {base : Path} {p : Place} {t : Tree} (hlead : t.Leads base p)
    {names : List Name} {last : Name} (hplain : ∀ name ∈ names ++ [last], name.Plain)
    (hfits : Fits (base.joinAll (names ++ [last]))) (h : t.Lacks p (names ++ [last])) :
    Vacant (base.joinAll (names ++ [last])) t := by
  have hshort := hfits.short
  obtain ⟨t', hmade, hleads, hnothing⟩ :=
    Tree.makeFolders_of_lacks hlead hplain hfits.noZero (by omega) h
  have hnotFound := Tree.foldlM_enter_of_lacks hlead hplain (by simp) h
  rw [← base.steps_joinAll hplain] at hnotFound
  exact .missing hnotFound hmade hleads hnothing

/-- Records are kept in a usable folder as they are in memory. -/
theorem reliable_folder (folder : Path) : Reliable (.folder folder) (Usable folder) where
  load domain h := by
    rcases h.there with ⟨p, hkept⟩ | hmissing
    · exact hkept.exists_load h.fits domain
    · exact ⟨none, hmissing.loadFile_eq domain⟩
  save {s} record h := by
    obtain ⟨t, p, hmade, hkept, hload⟩ := h.made
    have hsave := hkept.saveFile_eq h.fits hmade record
    obtain ⟨hkept', hload'⟩ := hkept.save h.fits record
    refine ⟨{ s with files := written t p record }, ?_, ⟨h.fits, .inl ⟨p, hkept'⟩⟩,
      fun domain => ?_⟩
    · simp only [save, hsave]
    · simp only [load]
      rw [hload', hload]
  clear {s} domain h := by
    rcases h.there with ⟨p, hkept⟩ | hmissing
    · obtain ⟨t, hclear, hkept', hload⟩ := hkept.clear h.fits domain
      refine ⟨{ s with files := t }, ?_, ⟨h.fits, .inl ⟨p, hkept'⟩⟩, hload⟩
      simp only [clear, hclear]
    · refine ⟨s, ?_, h, fun domain' => ?_⟩
      · simp only [clear, hmissing.clearFile_eq]
      · split
        · exact hmissing.loadFile_eq domain'
        · rfl

end Rendezvous.Store
