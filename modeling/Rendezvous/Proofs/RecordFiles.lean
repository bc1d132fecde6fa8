import Rendezvous.Proofs.FileTree
import Rendezvous.Proofs.RecordText
import Rendezvous.Store

/-!
# The files of server records

Each domain has a file of its own in a folder, and a draft of its own. As long as nothing
but records stands under those names, a record that is saved is there, one that was cleared
is gone, and the files of other domains stay as they were.
-/

namespace Rendezvous.Store

open Files Text

/-! ## The names of files -/

def recordName (domain : UInt32) : Name := Name.ofString (fileName domain ".json")

def draftName (domain : UInt32) : Name := Name.ofString (fileName domain ".tmp")

/-- Whether a character is one byte, and none that means anything in a path. -/
def IsPlain (c : Char) : Prop := c.val ≤ 127 ∧ c ≠ '/' ∧ c ≠ '\x00'

instance : DecidablePred IsPlain := fun c =>
  inferInstanceAs (Decidable (c.val ≤ 127 ∧ c ≠ '/' ∧ c ≠ '\x00'))

theorem ofString_of_plain {chars : List Char} (h : ∀ c ∈ chars, IsPlain c) :
    Name.ofString (String.ofList chars) = chars.map (·.val.toUInt8) := by
  have hbytes : Name.ofString (String.ofList chars) = chars.flatMap String.utf8EncodeChar := by
    simp [Name.ofString, String.toByteArray_ofList, List.utf8Encode]
  rw [hbytes]
  clear hbytes
  induction chars with
  | nil => rfl
  | cons c chars ih =>
      have hsize : c.utf8Size = 1 := if_pos (h c List.mem_cons_self).1
      rw [List.flatMap_cons, String.utf8EncodeChar_eq_singleton hsize, List.map_cons,
        ih fun c hc => h c (List.mem_cons_of_mem _ hc)]
      rfl

theorem ofString_inj {a b : String} (h : Name.ofString a = Name.ofString b) : a = b := by
  simp only [Name.ofString] at h
  exact String.toByteArray_inj.1 (ByteArray.ext (Array.toList_inj.1 h))

theorem digit_range {c : Char} (hc : isDecimalDigit c = true) : '0' ≤ c ∧ c ≤ '9' := by
  simp only [isDecimalDigit, digitValue?] at hc
  by_cases hdigit : '0' ≤ c ∧ c ≤ '9'
  · exact hdigit
  · rw [if_neg hdigit] at hc
    by_cases hlower : 'a' ≤ c ∧ c ≤ 'z'
    · have hle : 97 ≤ c.toNat := hlower.1
      rw [if_pos hlower, if_neg (by omega)] at hc
      cases hc
    · rw [if_neg hlower] at hc
      by_cases hupper : 'A' ≤ c ∧ c ≤ 'Z'
      · have hle : 65 ≤ c.toNat := hupper.1
        rw [if_pos hupper, if_neg (by omega)] at hc
        cases hc
      · rw [if_neg hupper, if_neg (by omega)] at hc
        cases hc

theorem isPlain_digit {c : Char} (hc : isDecimalDigit c = true) : IsPlain c := by
  have hlow : 48 ≤ c.toNat := (digit_range hc).1
  have hhigh : c.toNat ≤ 57 := (digit_range hc).2
  refine ⟨?_, ?_, ?_⟩
  · exact Nat.le_trans hhigh (by decide)
  · rintro rfl
    exact absurd hlow (by decide)
  · rintro rfl
    exact absurd hlow (by decide)

theorem fileName_eq (domain : UInt32) (ending : String) :
    fileName domain ending =
      String.ofList ("domain-".toList ++ decimal domain.toNat ++ ending.toList) := by
  rw [← String.toList_inj]
  simp [fileName, domainText]

theorem eq_of_byte_eq {c c' : Char} (h : IsPlain c) (h' : c'.val ≤ 127)
    (heq : c.val.toUInt8 = c'.val.toUInt8) : c = c' := by
  have hbyte := congrArg UInt8.toNat heq
  have hle : c.val.toNat ≤ 127 := h.1
  have hle' : c'.val.toNat ≤ 127 := h'
  rw [UInt32.toNat_toUInt8, UInt32.toNat_toUInt8] at hbyte
  exact Char.ext (UInt32.toNat_inj.1 (by omega))

/-- The name of a domain's file stands for itself in any path. -/
theorem plain_fileName (domain : UInt32) {ending : String}
    (hending : ending.toList.all (fun c => IsPlain c) = true)
    (hlength : ending.toList.length ≤ 5) :
    (Name.ofString (fileName domain ending)).Plain ∧
      (Name.ofString (fileName domain ending)).length ≤ 22 := by
  have hplain : ∀ c ∈ "domain-".toList ++ decimal domain.toNat ++ ending.toList, IsPlain c := by
    intro c hc
    have hfront : "domain-".toList.all (fun c => IsPlain c) = true := by decide
    simp only [List.mem_append] at hc
    rcases hc with (hc | hc) | hc
    · exact of_decide_eq_true (List.all_eq_true.1 hfront c hc)
    · exact isPlain_digit (decimal_digits _ c hc)
    · exact of_decide_eq_true (List.all_eq_true.1 hending c hc)
  have hno : ∀ c', ¬IsPlain c' → c'.val ≤ 127 → c'.val.toUInt8 ∉
      ("domain-".toList ++ decimal domain.toNat ++ ending.toList).map (·.val.toUInt8) := by
    intro c' hc' hbyte hmem
    obtain ⟨c, hc, heq⟩ := List.mem_map.1 hmem
    have hsame := eq_of_byte_eq (hplain c hc) hbyte heq
    exact hc' (hsame ▸ hplain c hc)
  have hstart : "domain-".toList.length = 7 := by decide
  have hdigits : (decimal domain.toNat).length ≤ 9 + 1 :=
    length_decimal_le (Nat.lt_trans domain.toNat_lt (by decide))
  have hshort : (("domain-".toList ++ decimal domain.toNat ++ ending.toList).map
      (·.val.toUInt8)).length ≤ 22 := by
    rw [List.length_map, List.length_append, List.length_append]
    omega
  have hhead : (("domain-".toList ++ decimal domain.toNat ++ ending.toList).map
      (·.val.toUInt8)).head? = some 100 := rfl
  rw [fileName_eq, ofString_of_plain hplain]
  refine ⟨⟨?_, ?_, ?_, ?_, ?_, ?_⟩, hshort⟩
  · intro hnil
    rw [hnil] at hhead
    cases hhead
  · exact hno '/' (by decide) (by decide)
  · exact hno '\x00' (by decide) (by decide)
  · exact Nat.le_trans hshort (by decide)
  · intro heq
    rw [heq] at hhead
    revert hhead
    decide
  · intro heq
    rw [heq] at hhead
    revert hhead
    decide

theorem plain_recordName (domain : UInt32) :
    (recordName domain).Plain ∧ (recordName domain).length ≤ 22 :=
  plain_fileName domain (by decide) (by decide)

theorem plain_draftName (domain : UInt32) :
    (draftName domain).Plain ∧ (draftName domain).length ≤ 22 :=
  plain_fileName domain (by decide) (by decide)

theorem recordName_inj {domain domain' : UInt32} (h : recordName domain = recordName domain') :
    domain = domain' := by
  have htext := ofString_inj h
  rw [fileName_eq, fileName_eq, String.ofList_inj] at htext
  have hdigits := List.append_cancel_left (List.append_cancel_right htext)
  have hvalue := congrArg ofDecimal hdigits
  rw [ofDecimal_decimal, ofDecimal_decimal] at hvalue
  exact UInt32.toNat_inj.1 hvalue

theorem recordName_ne_draftName (domain domain' : UInt32) :
    recordName domain ≠ draftName domain' := by
  intro h
  have htext := ofString_inj h
  rw [fileName_eq, fileName_eq, String.ofList_inj] at htext
  have hlast := congrArg List.getLast? htext
  have hjson : ".json".toList.getLast? = some 'n' := by decide
  have htmp : ".tmp".toList.getLast? = some 'p' := by decide
  simp only [List.getLast?_append, hjson, htmp, Option.some_or] at hlast
  revert hlast
  decide

/-! ## Records in a folder -/

structure Fits (folder : Path) : Prop where
  noZero : folder.hasZeroByte = false
  short : folder.bytes.length + 23 ≤ Path.limit

theorem Fits.holds {folder : Path} (h : Fits folder) {name : Name}
    (hname : name.Plain ∧ name.length ≤ 22) : folder.Holds name := by
  have hlength := folder.length_join_le hname.1
  have hshort := h.short
  exact ⟨hname.1, h.noZero, by omega⟩

theorem Fits.record {folder : Path} (h : Fits folder) (domain : UInt32) :
    folder.Holds (recordName domain) := h.holds (plain_recordName domain)

theorem Fits.draft {folder : Path} (h : Fits folder) (domain : UInt32) :
    folder.Holds (draftName domain) := h.holds (plain_draftName domain)

def IsRecord (e : Entry) : Prop :=
  ∃ content text record, e = .file content ∧ String.fromUTF8? content = some text ∧
    ServerRecord.schema.ofString text = .ok record

/-- Whether a folder is there, and nothing but records stands under the names of records. -/
structure Kept (folder : Path) (p : Place) (t : Tree) : Prop where
  leads : t.Leads folder p
  record : ∀ domain e, t.at? (p.child (recordName domain)) = some e → IsRecord e
  draft : ∀ domain, t.at? (p.child (draftName domain)) ≠ some .folder

section Folder

variable {folder : Path} {p : Place} {t : Tree}

theorem kept_of_empty (hlead : t.Leads folder p) (hempty : ∀ name, t.at? (p.child name) = none) :
    Kept folder p t := by
  refine ⟨hlead, fun domain e he => ?_, fun domain hat => ?_⟩
  · rw [hempty] at he
    cases he
  · rw [hempty] at hat
    cases hat

theorem loadFile_of_none (hfits : Fits folder) (hlead : t.Leads folder p) {domain : UInt32}
    (h : t.at? (p.child (recordName domain)) = none) :
    loadFile t (recordPath folder domain) = .ok none := by
  have hread := Tree.readText_join hlead (hfits.record domain)
  rw [h] at hread
  have hsame : t.readText (recordPath folder domain) = .error .notFound := hread
  rw [loadFile, hsame]

theorem loadFile_of_record {domain : UInt32} (hholds : folder.Holds (recordName domain))
    (hlead : t.Leads folder p) {content : ByteArray} {text : String} {record : ServerRecord}
    (h : t.at? (p.child (recordName domain)) = some (.file content))
    (htext : String.fromUTF8? content = some text)
    (hrecord : ServerRecord.schema.ofString text = .ok record) :
    loadFile t (recordPath folder domain) = .ok (some record) := by
  have hread := Tree.readText_join hlead hholds
  simp only [h, htext] at hread
  have hsame : t.readText (recordPath folder domain) = .ok text := hread
  simp only [loadFile, hsame, hrecord]

/-- What is read for a domain depends on the file of its record alone. -/
theorem loadFile_congr {t' : Tree} (hlead : t.Leads folder p) (hlead' : t'.Leads folder p)
    {domain : UInt32}
    (h : t'.at? (p.child (recordName domain)) = t.at? (p.child (recordName domain))) :
    loadFile t' (recordPath folder domain) = loadFile t (recordPath folder domain) := by
  have hplain := (plain_recordName domain).1
  have hsame : t'.readText (recordPath folder domain) = t.readText (recordPath folder domain) := by
    by_cases hholds : folder.Holds (recordName domain)
    · have hread := Tree.readText_join hlead hholds
      have hread' := Tree.readText_join hlead' hholds
      rw [h, ← hread] at hread'
      exact hread'
    · obtain ⟨e, hresolve⟩ := Tree.resolve_join_of_not_holds hplain hholds
      have hrefused : ∀ t : Tree, t.readText (recordPath folder domain) = .error e := by
        intro t
        have hresolve : t.resolve (recordPath folder domain) = .error e := hresolve t
        simp only [Tree.readText, Tree.read, hresolve, bind, Except.bind]
      rw [hrefused, hrefused]
  rw [loadFile, hsame, loadFile]

theorem Kept.exists_load (h : Kept folder p t) (hfits : Fits folder) (domain : UInt32) :
    ∃ r, loadFile t (recordPath folder domain) = .ok r := by
  cases hat : t.at? (p.child (recordName domain)) with
  | none => exact ⟨none, loadFile_of_none hfits h.leads hat⟩
  | some e =>
      obtain ⟨content, text, record, rfl, htext, hrecord⟩ := h.record domain e hat
      exact ⟨some record, loadFile_of_record (hfits.record domain) h.leads hat htext hrecord⟩

theorem Kept.record_ne_folder (h : Kept folder p t) (domain : UInt32) :
    t.at? (p.child (recordName domain)) ≠ some .folder := by
  intro hat
  obtain ⟨_, _, _, hfile, _⟩ := h.record domain _ hat
  cases hfile

theorem child_record_ne_draft (p : Place) (domain domain' : UInt32) :
    p.child (recordName domain) ≠ p.child (draftName domain') :=
  fun heq => recordName_ne_draftName domain domain' (Place.child_inj.1 heq).2

def drafted (t : Tree) (p : Place) (record : ServerRecord) : Tree :=
  t.set (p.child (draftName record.domain)) (.file (fileText record).toUTF8)

theorem at?_drafted (t : Tree) (p : Place) (record : ServerRecord) (q : Place) :
    (drafted t p record).at? q =
      if q = p.child (draftName record.domain) then some (.file (fileText record).toUTF8)
      else t.at? q := Tree.at?_set (p.isStart_child _) _ _ _

theorem leads_drafted (hlead : t.Leads folder p) {record : ServerRecord}
    (h : t.at? (p.child (draftName record.domain)) ≠ some .folder) :
    (drafted t p record).Leads folder p :=
  hlead.keeps (Tree.keepsFolders_set (p.isStart_child _) h _)

/-- The tree once a record is written: under its own name, by way of a draft that is gone. -/
def written (t : Tree) (p : Place) (record : ServerRecord) : Tree :=
  ((t.set (p.child (draftName record.domain)) (.file (fileText record).toUTF8)).clear
    (p.child (draftName record.domain))).set (p.child (recordName record.domain))
      (.file (fileText record).toUTF8)

theorem at?_written (t : Tree) (p : Place) (record : ServerRecord) (q : Place) :
    (written t p record).at? q =
      if q = p.child (recordName record.domain) then some (.file (fileText record).toUTF8)
      else if q = p.child (draftName record.domain) then none else t.at? q := by
  rw [written, Tree.at?_set (p.isStart_child _), Tree.at?_clear (p.isStart_child _),
    Tree.at?_set (p.isStart_child _)]
  split
  · rfl
  · split <;> rfl

theorem keepsFolders_written {record : ServerRecord}
    (hrecord : t.at? (p.child (recordName record.domain)) ≠ some .folder)
    (hdraft : t.at? (p.child (draftName record.domain)) ≠ some .folder) :
    t.KeepsFolders (written t p record) := by
  intro q hq
  have hother : q ≠ p.child (recordName record.domain) := fun heq => hrecord (heq ▸ hq)
  have hother' : q ≠ p.child (draftName record.domain) := fun heq => hdraft (heq ▸ hq)
  rw [at?_written, if_neg hother, if_neg hother', hq]

theorem Kept.keepsFolders_written (h : Kept folder p t) (record : ServerRecord) :
    t.KeepsFolders (written t p record) :=
  Store.keepsFolders_written (h.record_ne_folder _) (h.draft _)

/-- How a record is written once its folder is there: the draft cannot be put there, or it can
but not be moved to its place, or all is done. -/
theorem saveFile_of_made {files : Tree} (hmade : files.makeFolders folder = (t, .ok ()))
    (hlead : t.Leads folder p) (record : ServerRecord) :
    (¬ t.Takes folder p (draftName record.domain) ∧
        ∃ e, saveFile files folder record = (t, .error e)) ∨
      (t.Takes folder p (draftName record.domain) ∧
        ¬ t.Takes folder p (recordName record.domain) ∧
        ∃ e, saveFile files folder record = (drafted t p record, .error e)) ∨
      (t.Takes folder p (draftName record.domain) ∧ t.Takes folder p (recordName record.domain) ∧
        saveFile files folder record = (written t p record, .ok ())) := by
  by_cases hdraft : t.Takes folder p (draftName record.domain)
  · have hwrite : t.write (draftPath folder record.domain) (fileText record).toUTF8 =
        .ok (drafted t p record) := Tree.write_join hlead hdraft.1 hdraft.2 _
    have hlead' := leads_drafted hlead hdraft.2
    have hfile := at?_drafted t p record (p.child (draftName record.domain))
    have hplace := at?_drafted t p record (p.child (recordName record.domain))
    rw [if_pos rfl] at hfile
    rw [if_neg (child_record_ne_draft p _ _)] at hplace
    by_cases hrecord : t.Takes folder p (recordName record.domain)
    · have hmove : (drafted t p record).moveFile (draftPath folder record.domain)
          (recordPath folder record.domain) = .ok (written t p record) :=
        Tree.moveFile_join hlead' hdraft.1 hrecord.1 hfile (hplace ▸ hrecord.2)
      refine .inr (.inr ⟨hdraft, hrecord, ?_⟩)
      simp only [saveFile, hmade, hwrite, hmove]
    · have hnot : ¬ (drafted t p record).Takes folder p (recordName record.domain) :=
        fun ⟨hholds, hne⟩ => hrecord ⟨hholds, hplace ▸ hne⟩
      obtain ⟨e, hmove⟩ : ∃ e, (drafted t p record).moveFile (draftPath folder record.domain)
          (recordPath folder record.domain) = .error e :=
        Tree.moveFile_join_of_not_takes hlead' hdraft.1 hfile (plain_recordName _).1 hnot
      refine .inr (.inl ⟨hdraft, hrecord, failure "rename" (draftPath folder record.domain) e, ?_⟩)
      simp only [saveFile, hmade, hwrite, hmove]
  · obtain ⟨e, hwrite⟩ : ∃ e, t.write (draftPath folder record.domain)
        (fileText record).toUTF8 = .error e :=
      Tree.write_join_of_not_takes hlead (plain_draftName _).1 hdraft _
    refine .inl ⟨hdraft, failure "write" (draftPath folder record.domain) e, ?_⟩
    simp only [saveFile, hmade, hwrite]

theorem Kept.takes (h : Kept folder p t) (hfits : Fits folder) (domain : UInt32) :
    t.Takes folder p (draftName domain) ∧ t.Takes folder p (recordName domain) :=
  ⟨⟨hfits.draft domain, h.draft domain⟩, ⟨hfits.record domain, h.record_ne_folder domain⟩⟩

theorem Kept.saveFile_eq {files : Tree} (hfits : Fits folder)
    (hmade : files.makeFolders folder = (t, .ok ())) (h : Kept folder p t)
    (record : ServerRecord) :
    saveFile files folder record = (written t p record, .ok ()) := by
  obtain ⟨hdraft, hrecord⟩ := h.takes hfits record.domain
  rcases saveFile_of_made hmade h.leads record with ⟨hnot, _⟩ | ⟨_, hnot, _⟩ | ⟨_, _, hsaved⟩
  · exact absurd hdraft hnot
  · exact absurd hrecord hnot
  · exact hsaved

/-- A record that was written is there, and the records of other domains are as they were. -/
theorem Kept.save (h : Kept folder p t) (hfits : Fits folder) (record : ServerRecord) :
    Kept folder p (written t p record) ∧ ∀ domain,
      loadFile (written t p record) (recordPath folder domain) =
        if domain = record.domain then .ok (some record)
        else loadFile t (recordPath folder domain) := by
  have hlead := h.leads.keeps (h.keepsFolders_written record)
  have hsame : ∀ domain, domain ≠ record.domain →
      (written t p record).at? (p.child (recordName domain)) =
        t.at? (p.child (recordName domain)) := by
    intro domain hne
    have hother : p.child (recordName domain) ≠ p.child (recordName record.domain) :=
      fun heq => hne (recordName_inj (Place.child_inj.1 heq).2)
    rw [at?_written, if_neg hother, if_neg (child_record_ne_draft p _ _)]
  have hown : (written t p record).at? (p.child (recordName record.domain)) =
      some (.file (fileText record).toUTF8) := by
    rw [at?_written, if_pos rfl]
  refine ⟨⟨hlead, fun domain e he => ?_, fun domain hat => ?_⟩, fun domain => ?_⟩
  · by_cases hd : domain = record.domain
    · rw [hd, hown] at he
      cases he
      exact ⟨_, _, record, rfl, fromUTF8?_toUTF8 _, record.ofString_toJson⟩
    · rw [hsame domain hd] at he
      exact h.record domain e he
  · rw [at?_written, if_neg (child_record_ne_draft p _ _).symm] at hat
    split at hat
    · cases hat
    · exact h.draft domain hat
  · by_cases hd : domain = record.domain
    · rw [if_pos hd, hd]
      exact loadFile_of_record (hfits.record _) hlead hown (fromUTF8?_toUTF8 _)
        record.ofString_toJson
    · rw [if_neg hd]
      exact loadFile_congr h.leads hlead (hsame domain hd)

/-- A file that is not there is cleared as well as one that is. -/
theorem Kept.clearFile_eq (h : Kept folder p t) (hfits : Fits folder) (domain : UInt32) :
    clearFile t (recordPath folder domain) =
      (t.clear (p.child (recordName domain)), .ok ()) := by
  have hremove := Tree.removeFile_join h.leads (hfits.record domain)
  cases hat : t.at? (p.child (recordName domain)) with
  | none =>
      rw [hat] at hremove
      have hnone : t.removeFile (recordPath folder domain) = .error .notFound := hremove
      simp only [clearFile, hnone, Tree.clear_of_none (p.isStart_child _) hat]
  | some e =>
      obtain ⟨content, text, record, rfl, htext, hrecord⟩ := h.record domain e hat
      rw [hat] at hremove
      have hgone : t.removeFile (recordPath folder domain) =
          .ok (t.clear (p.child (recordName domain))) := hremove
      simp only [clearFile, hgone]

/-- A record that was cleared is gone, and the records of other domains are as they were. -/
theorem Kept.clear (h : Kept folder p t) (hfits : Fits folder) (domain : UInt32) :
    ∃ t', clearFile t (recordPath folder domain) = (t', .ok ()) ∧ Kept folder p t' ∧
      ∀ domain', loadFile t' (recordPath folder domain') =
        if domain' = domain then .ok none else loadFile t (recordPath folder domain') := by
  have hplace : ∀ q, (t.clear (p.child (recordName domain))).at? q =
      if q = p.child (recordName domain) then none else t.at? q :=
    t.at?_clear (p.isStart_child _)
  have hlead := h.leads.keeps
    (Tree.keepsFolders_clear (p.isStart_child _) (h.record_ne_folder domain))
  refine ⟨_, h.clearFile_eq hfits domain, ⟨hlead, fun domain' e' he' => ?_,
    fun domain' hat' => ?_⟩, fun domain' => ?_⟩
  · rw [hplace] at he'
    split at he'
    · cases he'
    · exact h.record domain' e' he'
  · rw [hplace, if_neg (child_record_ne_draft p _ _).symm] at hat'
    exact h.draft domain' hat'
  · by_cases hd : domain' = domain
    · rw [if_pos hd, hd]
      exact loadFile_of_none hfits hlead (by rw [hplace, if_pos rfl])
    · have hother : p.child (recordName domain') ≠ p.child (recordName domain) :=
        fun heq => hd (recordName_inj (Place.child_inj.1 heq).2)
      rw [if_neg hd]
      exact loadFile_congr h.leads hlead (by rw [hplace, if_neg hother])

end Folder

end Rendezvous.Store
