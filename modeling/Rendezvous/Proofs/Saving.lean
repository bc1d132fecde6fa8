import Rendezvous.Proofs.RecordFiles

/-!
# What a save leaves behind

In a folder that is there, whatever stands in it, a record is saved exactly if files can be
put under its name and under the name of its draft. A save that fails spares all records. Main
statement: it spares everything, but for the draft, which stays if the name of the record is
what cannot be taken.
-/

namespace Rendezvous.Store

open Files

section Folder

variable {folder : Path} {p : Place} {t : Tree}

theorem saveFile_cases (hlead : t.Leads folder p) (record : ServerRecord) :
    (¬ t.Takes folder p (draftName record.domain) ∧
        ∃ e, saveFile t folder record = (t, .error e)) ∨
      (t.Takes folder p (draftName record.domain) ∧
        ¬ t.Takes folder p (recordName record.domain) ∧
        ∃ e, saveFile t folder record = (drafted t p record, .error e)) ∨
      (t.Takes folder p (draftName record.domain) ∧ t.Takes folder p (recordName record.domain) ∧
        saveFile t folder record = (written t p record, .ok ())) := by
  have hself := Tree.makeFolders_eq_self hlead
  cases hmade : t.makeFolders folder with
  | mk made result =>
      rw [hmade] at hself
      simp only at hself
      subst hself
      cases result with
      | ok => exact saveFile_of_made hmade hlead record
      | error e =>
          -- Where not even the path to the folder is accepted, that to the draft is not.
          have hrefused : ¬ made.Takes folder p (draftName record.domain) := by
            rintro ⟨hholds, _⟩
            have hlength := folder.length_le_join hholds.plain
            have hshort := hholds.short
            rw [Tree.makeFolders_of_leads hlead hholds.noZero (by omega)] at hmade
            cases hmade
          refine .inl ⟨hrefused, failure "create directory" folder e, ?_⟩
          simp only [saveFile, hmade]

theorem loadFile_drafted (hlead : t.Leads folder p) {record : ServerRecord}
    (h : t.at? (p.child (draftName record.domain)) ≠ some .folder) (domain : UInt32) :
    loadFile (drafted t p record) (recordPath folder domain) =
      loadFile t (recordPath folder domain) := by
  refine loadFile_congr hlead (leads_drafted hlead h) ?_
  rw [at?_drafted, if_neg (child_record_ne_draft p _ _)]

end Folder

/-- A save in a folder that is there is done if both names can be taken, and then only the file of
its domain is another and no draft is left. If it fails, every record is as it was, and so is
everything, unless the draft could be written but the name of the record not be taken. -/
theorem save_spares_files {s : Storage} {folder : Path} {p : Place}
    (hlead : s.files.Leads folder p) (record : ServerRecord) :
    ∃ s' result, (Store.folder folder).save s record = (s', result) ∧
      (result = .ok () ↔ s.files.Takes folder p (draftName record.domain) ∧
        s.files.Takes folder p (recordName record.domain)) ∧
      (result = .ok () → ∀ q, s'.files.at? q =
        if q = p.child (recordName record.domain) then some (.file (fileText record).toUTF8)
        else if q = p.child (draftName record.domain) then none else s.files.at? q) ∧
      (result ≠ .ok () →
        (∀ domain, (Store.folder folder).load s' domain = (Store.folder folder).load s domain) ∧
        (s.files.Takes folder p (recordName record.domain) ∨
          ¬ s.files.Takes folder p (draftName record.domain) → s' = s) ∧
        (s.files.Takes folder p (draftName record.domain) → ∀ q, s'.files.at? q =
          if q = p.child (draftName record.domain) then some (.file (fileText record).toUTF8)
          else s.files.at? q)) := by
  rcases saveFile_cases hlead record with
    ⟨hdraft, e, hsaved⟩ | ⟨hdraft, hrecord, e, hsaved⟩ | ⟨hdraft, hrecord, hsaved⟩
  · refine ⟨s, .error e, by simp only [save, hsaved], ?_, nofun, fun _ => ⟨fun _ => rfl,
      fun _ => rfl, fun h => absurd h hdraft⟩⟩
    exact ⟨nofun, fun ⟨h, _⟩ => absurd h hdraft⟩
  · refine ⟨{ s with files := drafted s.files p record }, .error e, by simp only [save, hsaved],
      ?_, nofun, fun _ => ⟨loadFile_drafted hlead hdraft.2, ?_, fun _ => at?_drafted _ _ _⟩⟩
    · exact ⟨nofun, fun ⟨_, h⟩ => absurd h hrecord⟩
    · rintro (h | h)
      · exact absurd h hrecord
      · exact absurd hdraft h
  · refine ⟨{ s with files := written s.files p record }, .ok (), by simp only [save, hsaved],
      ?_, fun _ => at?_written _ _ _, fun h => absurd rfl h⟩
    exact ⟨fun _ => ⟨hdraft, hrecord⟩, fun _ => rfl⟩

/-- A working folder in which nothing but a folder of some name stands. -/
def occupied (name : Name) : Storage := ⟨.empty, Tree.empty.set (Place.working.child name) .folder⟩

def workingFolder : Path := .ofString "."

theorem leads_occupied (name : Name) : (occupied name).files.Leads workingFolder .working := rfl

theorem at?_occupied (name name' : Name) : (occupied name).files.at? (Place.working.child name') =
    if name' = name then some .folder else none := by
  rw [occupied, Tree.at?_set (Place.isStart_child _ _)]
  by_cases h : name' = name
  · rw [if_pos h, if_pos (Place.child_inj.2 ⟨rfl, h⟩)]
  · rw [if_neg h, if_neg fun heq => h (Place.child_inj.1 heq).2]
    rfl

/-- A folder under the name of the draft makes the save fail, and nothing is changed. -/
theorem save_spares_occupied : (occupied (draftName 1)).files.Leads workingFolder .working ∧
    ∃ e, (Store.folder workingFolder).save (occupied (draftName 1)) ⟨1, 7, default, 0⟩ =
      (occupied (draftName 1), .error e) := by
  have hlead := leads_occupied (draftName 1)
  obtain ⟨s', result, hsave, hdone, _, hfailed⟩ :=
    save_spares_files hlead ⟨1, 7, default, 0⟩
  have hat := at?_occupied (draftName 1) (draftName 1)
  rw [if_pos rfl] at hat
  have hnot : ¬ (occupied (draftName 1)).files.Takes workingFolder .working (draftName 1) :=
    fun h => h.2 hat
  refine ⟨hlead, ?_⟩
  cases result with
  | ok => exact absurd (hdone.1 rfl).1 hnot
  | error e =>
      obtain ⟨_, hsame, _⟩ := hfailed nofun
      rw [hsave, hsame (.inr hnot)]
      exact ⟨e, rfl⟩

/-- A folder under the name of the record makes the save fail, too, but the draft stays. -/
theorem not_save_spares_files : ∃ s' e,
    (Store.folder workingFolder).save (occupied (recordName 1)) ⟨1, 7, default, 0⟩ =
        (s', .error e) ∧
      (occupied (recordName 1)).files.at? (Place.working.child (draftName 1)) = none ∧
      s'.files.at? (Place.working.child (draftName 1)) ≠ none := by
  have hfits : Fits workingFolder := ⟨by decide, by decide⟩
  have hrecord := at?_occupied (recordName 1) (recordName 1)
  have hdraft := at?_occupied (recordName 1) (draftName 1)
  rw [if_pos rfl] at hrecord
  rw [if_neg (recordName_ne_draftName 1 1).symm] at hdraft
  rcases saveFile_cases (leads_occupied (recordName 1)) ⟨1, 7, default, 0⟩ with
    ⟨hnot, _⟩ | ⟨_, _, e, hsaved⟩ | ⟨_, htakes, _⟩
  · refine absurd ⟨hfits.draft 1, ?_⟩ hnot
    rw [hdraft]
    exact nofun
  · refine ⟨{ occupied (recordName 1) with files := _ }, e, by simp only [save, hsaved]; rfl,
      hdraft, ?_⟩
    rw [at?_drafted, if_pos rfl]
    exact nofun
  · exact absurd hrecord htakes.2

end Rendezvous.Store
