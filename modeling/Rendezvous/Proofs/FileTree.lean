import Rendezvous.Files.Tree

/-!
# Files in a folder

What the operations on a file tree do with the files of one folder. A file of the folder is
named by the way to the folder and a plain name; as long as no folder goes away, the way
leads where it led. Main statements: what is written can be read, a file that is moved or
removed is gone from where it was, and all other places stay as they were.
-/

namespace Rendezvous.Files

/-! ## The path to a file -/

/-- Whether a name can stand behind the last slash of a path and names an entry there. -/
structure Name.Plain (name : Name) : Prop where
  ne_nil : name ≠ []
  noSlash : Path.slash ∉ name
  noZero : (0 : UInt8) ∉ name
  short : name.length ≤ Name.limit
  ne_here : name ≠ Path.here
  ne_above : name ≠ Path.above

namespace Path

theorem splitSlashes_ne_nil (bytes : List UInt8) : splitSlashes bytes ≠ [] := by
  cases bytes with
  | nil => simp [splitSlashes]
  | cons b rest =>
      simp only [splitSlashes]
      split
      · simp
      · split <;> simp

theorem splitSlashes_append_slash (front back : List UInt8) :
    splitSlashes (front ++ slash :: back) = splitSlashes front ++ splitSlashes back := by
  induction front with
  | nil => simp [splitSlashes]
  | cons b front ih =>
      by_cases hb : b = slash
      · simp [splitSlashes, hb, ih]
      · simp only [List.cons_append, splitSlashes, if_neg hb, ih]
        cases hfront : splitSlashes front with
        | nil => exact absurd hfront (splitSlashes_ne_nil front)
        | cons name names => rfl

theorem splitSlashes_of_not_mem {name : List UInt8} (h : slash ∉ name) :
    splitSlashes name = [name] := by
  induction name with
  | nil => rfl
  | cons b name ih =>
      have hb : b ≠ slash := fun heq => h (heq ▸ List.mem_cons_self)
      simp only [splitSlashes, if_neg hb, ih fun hmem => h (List.mem_cons_of_mem _ hmem)]

theorem bytes_join_eq {folder : Path} (hfolder : folder.bytes ≠ []) {name : Name}
    (h : name.Plain) : ∃ front, (folder.join ⟨name⟩).bytes = front ++ slash :: name ∧
      (folder.bytes = front ∨ folder.bytes = front ++ [slash]) := by
  have hrelative : isAbsolute ⟨name⟩ = false := by
    cases name with
    | nil => rfl
    | cons b name =>
        have hb : b ≠ slash := fun heq => h.noSlash (heq ▸ List.mem_cons_self)
        simp [isAbsolute, hb]
  have hnonempty : ¬(isAbsolute ⟨name⟩ = true ∨ folder.bytes.isEmpty = true) := by
    simp [hrelative, hfolder]
  rw [join, if_neg hnonempty]
  by_cases hslash : folder.endsInSlash = true
  · rw [if_pos hslash]
    obtain ⟨front, hfront⟩ : ∃ front, folder.bytes = front ++ [slash] := by
      rw [endsInSlash, beq_iff_eq] at hslash
      exact List.getLast?_eq_some_iff.1 hslash
    exact ⟨front, by simp [hfront], .inr hfront⟩
  · rw [if_neg hslash]
    exact ⟨folder.bytes, rfl, .inl rfl⟩

theorem join_empty {folder : Path} (hfolder : folder.bytes = []) (name : Name) :
    folder.join ⟨name⟩ = ⟨name⟩ := by
  simp [join, hfolder]

/-- The way to a file of a folder is the way to the folder, and the name of the file. -/
theorem steps_join (folder : Path) {name : Name} (h : name.Plain) :
    (folder.join ⟨name⟩).steps = folder.steps ++ [name] := by
  have hname : splitSlashes name = [name] := splitSlashes_of_not_mem h.noSlash
  have hkeep : [name].filter (!·.isEmpty) = [name] := by simp [h.ne_nil]
  by_cases hfolder : folder.bytes = []
  · have hhead : name.head? ≠ some slash := fun hs => h.noSlash (List.mem_of_mem_head? hs)
    rw [join_empty hfolder]
    simp [steps, isAbsolute, hname, hkeep, hfolder, splitSlashes, hhead]
  · obtain ⟨front, hjoin, hcases⟩ := bytes_join_eq hfolder h
    have habsolute : (folder.join ⟨name⟩).isAbsolute = folder.isAbsolute := by
      rw [isAbsolute, isAbsolute, hjoin]
      rcases hcases with hcase | hcase
      · cases front with
        | nil => exact absurd hcase hfolder
        | cons b front => rw [hcase]; rfl
      · cases front with
        | nil => rw [hcase]; rfl
        | cons b front => rw [hcase]; rfl
    have hnames : (splitSlashes (folder.join ⟨name⟩).bytes).filter (!·.isEmpty) =
        (splitSlashes folder.bytes).filter (!·.isEmpty) ++ [name] := by
      rw [hjoin, splitSlashes_append_slash, hname, List.filter_append, hkeep]
      rcases hcases with hcase | hcase
      · rw [hcase]
      · rw [hcase, splitSlashes_append_slash, List.filter_append]
        simp [splitSlashes]
    rw [steps, steps, habsolute, hnames]
    split <;> simp

theorem endsInSlash_join (folder : Path) {name : Name} (h : name.Plain) :
    (folder.join ⟨name⟩).endsInSlash = false := by
  have hlast : ∀ front : List UInt8, (front ++ name).getLast? ≠ some slash := by
    intro front hslash
    have hlast := List.getLast?_eq_some_getLast h.ne_nil
    rw [List.getLast?_append, hlast, Option.some_or] at hslash
    exact h.noSlash (Option.some.inj hslash ▸ List.getLast_mem h.ne_nil)
  by_cases hfolder : folder.bytes = []
  · rw [join_empty hfolder]
    simpa [endsInSlash] using hlast []
  · obtain ⟨front, hjoin, _⟩ := bytes_join_eq hfolder h
    have hsplit : front ++ slash :: name = (front ++ [slash]) ++ name := by simp
    rw [endsInSlash, hjoin, hsplit]
    simpa using hlast (front ++ [slash])

theorem steps_ne_nil {p : Path} (h : p.bytes ≠ []) : p.steps ≠ [] := by
  obtain ⟨bytes⟩ := p
  cases bytes with
  | nil => exact absurd rfl h
  | cons b rest =>
      by_cases hb : b = slash
      · simp [steps, isAbsolute, hb]
      · simp only [steps, splitSlashes, if_neg hb]
        cases hrest : splitSlashes rest with
        | nil => exact absurd hrest (splitSlashes_ne_nil rest)
        | cons name names => simp [isAbsolute, hb]

theorem length_join_le (folder : Path) {name : Name} (h : name.Plain) :
    (folder.join ⟨name⟩).bytes.length ≤ folder.bytes.length + 1 + name.length := by
  by_cases hfolder : folder.bytes = []
  · rw [join_empty hfolder]
    exact Nat.le_add_left _ _
  · obtain ⟨front, hjoin, hcases⟩ := bytes_join_eq hfolder h
    have hfront : front.length ≤ folder.bytes.length := by
      rcases hcases with hcase | hcase <;> simp [hcase]
    rw [hjoin, List.length_append, List.length_cons]
    omega

theorem hasZeroByte_join {folder : Path} (hzero : folder.hasZeroByte = false) {name : Name}
    (h : name.Plain) : (folder.join ⟨name⟩).hasZeroByte = false := by
  have hname := h.noZero
  by_cases hfolder : folder.bytes = []
  · rw [join_empty hfolder]
    simpa [hasZeroByte] using hname
  · obtain ⟨front, hjoin, hcases⟩ := bytes_join_eq hfolder h
    have hfront : (0 : UInt8) ∉ front := by
      intro hmem
      rcases hcases with hcase | hcase <;> simp [hasZeroByte, hcase, hmem] at hzero
    simp [hasZeroByte, hjoin, hfront, hname, slash]

theorem hasZeroByte_of_join {folder : Path} {name : Name} (h : name.Plain)
    (hzero : (folder.join ⟨name⟩).hasZeroByte = false) : folder.hasZeroByte = false := by
  by_cases hfolder : folder.bytes = []
  · simp [hasZeroByte, hfolder]
  · obtain ⟨front, hjoin, hcases⟩ := bytes_join_eq hfolder h
    have hfront : (0 : UInt8) ∉ front := by
      intro hmem
      simp [hasZeroByte, hjoin, hmem] at hzero
    rcases hcases with hcase | hcase <;> simp [hasZeroByte, hcase, hfront, slash]

theorem length_le_join (folder : Path) {name : Name} (h : name.Plain) :
    folder.bytes.length ≤ (folder.join ⟨name⟩).bytes.length := by
  by_cases hfolder : folder.bytes = []
  · rw [hfolder]
    exact Nat.zero_le _
  · obtain ⟨front, hjoin, hcases⟩ := bytes_join_eq hfolder h
    rw [hjoin, List.length_append, List.length_cons]
    rcases hcases with hcase | hcase
    · rw [hcase]
      exact Nat.le_add_right _ _
    · rw [hcase, List.length_append, List.length_singleton]
      omega

end Path

theorem fromUTF8?_toUTF8 (text : String) : String.fromUTF8? text.toUTF8 = some text := by
  simp [String.fromUTF8?, text.isValidUTF8, String.fromUTF8]

/-! ## Places -/

theorem Place.isStart_child (p : Place) (name : Name) : (p.child name).isStart = false := by
  simp [isStart, child]

theorem Place.step?_of_plain (p : Place) {name : Name} (h : name.Plain) :
    p.step? name = none := by
  have hroot : name ≠ Path.root := fun heq => h.noSlash (heq ▸ List.mem_cons_self)
  rw [step?, if_neg h.ne_here, if_neg h.ne_above, if_neg hroot]

namespace Tree

theorem at?_set {p : Place} (hp : p.isStart = false) (t : Tree) (e : Entry) (q : Place) :
    (t.set p e).at? q = if q = p then some e else t.at? q := by
  unfold at?
  by_cases hq : q = p
  · rw [if_pos hq, hq, hp, if_neg Bool.false_ne_true, set, OrderedMap.find?_insert, if_pos rfl]
  · rw [if_neg hq, set, OrderedMap.find?_insert, if_neg hq]

theorem at?_clear {p : Place} (hp : p.isStart = false) (t : Tree) (q : Place) :
    (t.clear p).at? q = if q = p then none else t.at? q := by
  unfold at?
  by_cases hq : q = p
  · rw [if_pos hq, hq, hp, if_neg Bool.false_ne_true, clear, OrderedMap.find?_erase, if_pos rfl]
  · rw [if_neg hq, clear, OrderedMap.find?_erase, if_neg hq]

theorem clear_of_none {p : Place} (hp : p.isStart = false) {t : Tree} (h : t.at? p = none) :
    t.clear p = t := by
  rw [at?, hp, if_neg Bool.false_ne_true] at h
  exact congrArg Tree.mk (OrderedMap.alter_of_eq h.symm)

/-! ## The way to a folder -/

def KeepsFolders (t t' : Tree) : Prop := ∀ p, t.at? p = some .folder → t'.at? p = some .folder

theorem enter_keeps {t t' : Tree} (h : t.KeepsFolders t') {p q : Place} {step : Name}
    (henter : t.enter p step = .ok q) : t'.enter p step = .ok q := by
  unfold enter at henter ⊢
  cases hstep : p.step? step with
  | some p' =>
      rw [hstep] at henter
      exact henter
  | none =>
      simp only [hstep, find?] at henter ⊢
      by_cases hlimit : Name.limit < step.length
      · simp [if_pos hlimit, bind, Except.bind] at henter
      · simp only [if_neg hlimit, bind, Except.bind] at henter ⊢
        cases hat : t.at? (p.child step) with
        | none => simp [hat] at henter
        | some e =>
            cases e with
            | file content => simp [hat] at henter
            | folder =>
                rw [hat] at henter
                rw [h _ hat]
                exact henter

theorem keepsFolders_set {p : Place} (hp : p.isStart = false) {t : Tree}
    (hnot : t.at? p ≠ some .folder) (e : Entry) : t.KeepsFolders (t.set p e) := by
  intro q hq
  have hne : q ≠ p := fun heq => hnot (heq ▸ hq)
  rw [at?_set hp, if_neg hne, hq]

theorem keepsFolders_clear {p : Place} (hp : p.isStart = false) {t : Tree}
    (hnot : t.at? p ≠ some .folder) : t.KeepsFolders (t.clear p) := by
  intro q hq
  have hne : q ≠ p := fun heq => hnot (heq ▸ hq)
  rw [at?_clear hp, if_neg hne, hq]

theorem foldlM_enter_keeps {t t' : Tree} (h : t.KeepsFolders t') {start p : Place}
    {steps : List Name} (hway : steps.foldlM t.enter start = .ok p) :
    steps.foldlM t'.enter start = .ok p := by
  induction steps generalizing start with
  | nil => exact hway
  | cons step steps ih =>
      rw [List.foldlM_cons] at hway ⊢
      cases henter : t.enter start step with
      | error e => simp [henter, bind, Except.bind] at hway
      | ok q =>
          rw [henter] at hway
          rw [enter_keeps h henter]
          exact ih hway

def Leads (t : Tree) (folder : Path) (p : Place) : Prop :=
  folder.steps.foldlM t.enter .working = .ok p

theorem Leads.keeps {t t' : Tree} {folder : Path} {p : Place} (hlead : t.Leads folder p)
    (h : t.KeepsFolders t') : t'.Leads folder p := foldlM_enter_keeps h hlead

/-- A path to a folder ends with a step to it, or with the name of it. -/
theorem resolve_of_leads {t : Tree} {folder : Path} {p : Place} (hlead : t.Leads folder p)
    (hzero : folder.hasZeroByte = false) (hlength : folder.bytes.length ≤ Path.limit)
    (hne : folder.bytes ≠ []) :
    (∃ step, t.resolve folder = .ok (.folder p step)) ∨
      ∃ q name slashed, t.resolve folder = .ok (.entry q name slashed) ∧ p = q.child name ∧
        t.find? q name = .ok (some .folder) ∧ t.at? p = some .folder := by
  have hsome := List.getLast?_eq_some_getLast (Path.steps_ne_nil hne)
  have hsplit := List.dropLast_concat_getLast (Path.steps_ne_nil hne)
  generalize folder.steps.getLast (Path.steps_ne_nil hne) = last at hsome hsplit
  unfold Leads at hlead
  rw [← hsplit, List.foldlM_append] at hlead
  simp only [resolve, hzero, Bool.false_eq_true, if_false, if_neg (Nat.not_lt.2 hlength), hsome]
  cases hfront : folder.steps.dropLast.foldlM t.enter .working with
  | error e => simp [hfront, bind, Except.bind] at hlead
  | ok q =>
      simp only [hfront, bind, Except.bind, List.foldlM_cons, List.foldlM_nil, enter,
        find?] at hlead ⊢
      cases hstep : q.step? last with
      | some r =>
          simp only [hstep, pure, Except.pure, Except.ok.injEq] at hlead
          exact .inl ⟨last, by rw [hlead]⟩
      | none =>
          by_cases hlimit : Name.limit < last.length
          · simp [hstep, if_pos hlimit] at hlead
          · cases hat : t.at? (q.child last) with
            | none => simp [hstep, if_neg hlimit, hat] at hlead
            | some e =>
                cases e with
                | file content => simp [hstep, if_neg hlimit, hat] at hlead
                | folder =>
                    simp [hstep, if_neg hlimit, hat, pure, Except.pure] at hlead
                    refine .inr ⟨q, last, folder.endsInSlash, rfl, hlead.symm, ?_, ?_⟩
                    · rw [if_neg hlimit, hat]
                    · rw [← hlead, hat]

theorem makeFolders_of_leads {t : Tree} {folder : Path} {p : Place} (hlead : t.Leads folder p)
    (hzero : folder.hasZeroByte = false) (hlength : folder.bytes.length ≤ Path.limit) :
    t.makeFolders folder = (t, .ok ()) := by
  unfold makeFolders
  by_cases hempty : folder.bytes = []
  · rw [if_pos (by rw [hempty]; rfl)]
  · rw [if_neg (by simpa using hempty)]
    rcases resolve_of_leads hlead hzero hlength hempty with
      ⟨step, hresolve⟩ | ⟨q, name, slashed, hresolve, rfl, hfind, hat⟩
    · simp [hresolve, ensureFolder, makeFolder, folderAt?, bind, Except.bind]
    · simp [hresolve, ensureFolder, makeFolder, folderAt?, bind, Except.bind, hfind, hat]

/-- Making a folder that is there changes nothing, even where its path is refused. -/
theorem makeFolders_eq_self {t : Tree} {folder : Path} {p : Place} (hlead : t.Leads folder p) :
    (t.makeFolders folder).1 = t := by
  have hrefused : ∀ e, e ≠ Error.notFound → folder.bytes ≠ [] → t.resolve folder = .error e →
      (t.makeFolders folder).1 = t := by
    intro e hne hnonempty hresolve
    have hnotEmpty : ¬ folder.bytes.isEmpty = true := by simpa using hnonempty
    have hmake : t.makeFolder folder = .error e := by
      simp only [makeFolder, hresolve, bind, Except.bind]
    rw [makeFolders, if_neg hnotEmpty, hresolve]
    cases e with
    | notFound => exact absurd rfl hne
    | _ => simp only [ensureFolder, hmake]
  by_cases hempty : folder.bytes = []
  · rw [makeFolders, if_pos (by rw [hempty]; rfl)]
  · by_cases hzero : folder.hasZeroByte = true
    · exact hrefused .zeroByte (by decide) hempty (by rw [resolve, if_pos hzero])
    · by_cases hlong : Path.limit < folder.bytes.length
      · exact hrefused .nameTooLong (by decide) hempty
          (by rw [resolve, if_neg hzero, if_pos hlong])
      · rw [makeFolders_of_leads hlead (Bool.eq_false_iff.2 hzero) (Nat.not_lt.1 hlong)]

end Tree

/-- Whether a folder can hold a file of a name: whether the path to it can be spelled. -/
structure Path.Holds (folder : Path) (name : Name) : Prop where
  plain : name.Plain
  noZero : folder.hasZeroByte = false
  short : (folder.join ⟨name⟩).bytes.length ≤ Path.limit

namespace Tree

section Entries

variable {t : Tree} {folder : Path} {p : Place} {name : Name}

/-- A path to an entry leads there exactly if the way to its folder does. -/
theorem resolve_of_steps {path : Path} (hzero : path.hasZeroByte = false)
    (hlength : path.bytes.length ≤ Path.limit) {front : List Name} {last : Name}
    (hsteps : path.steps = front ++ [last]) (hlast : last.Plain) :
    t.resolve path = (front.foldlM t.enter .working).map fun p =>
      .entry p last path.endsInSlash := by
  rw [resolve, hzero, if_neg Bool.false_ne_true, if_neg (Nat.not_lt.2 hlength), hsteps,
    List.getLast?_concat, List.dropLast_concat]
  simp only [bind, Except.bind, Place.step?_of_plain _ hlast]
  cases front.foldlM t.enter .working <;> rfl

theorem resolve_join_eq (t : Tree) (h : folder.Holds name) :
    t.resolve (folder.join ⟨name⟩) = (folder.steps.foldlM t.enter .working).map fun p =>
      .entry p name false := by
  rw [resolve_of_steps (Path.hasZeroByte_join h.noZero h.plain) h.short
    (folder.steps_join h.plain) h.plain, folder.endsInSlash_join h.plain]

theorem resolve_join (hlead : t.Leads folder p) (h : folder.Holds name) :
    t.resolve (folder.join ⟨name⟩) = .ok (.entry p name false) := by
  unfold Leads at hlead
  rw [resolve_join_eq t h, hlead]
  rfl

/-- Whether a path can be spelled does not depend on what there is. -/
theorem resolve_join_of_not_holds (hplain : name.Plain) (h : ¬ folder.Holds name) :
    ∃ e, ∀ t : Tree, t.resolve (folder.join ⟨name⟩) = .error e := by
  by_cases hzero : (folder.join ⟨name⟩).hasZeroByte = true
  · exact ⟨.zeroByte, fun t => by rw [resolve, if_pos hzero]⟩
  · have hlong : Path.limit < (folder.join ⟨name⟩).bytes.length :=
      Nat.lt_of_not_le fun hshort =>
        h ⟨hplain, Path.hasZeroByte_of_join hplain (Bool.eq_false_iff.2 hzero), hshort⟩
    exact ⟨.nameTooLong, fun t => by rw [resolve, if_neg hzero, if_pos hlong]⟩

theorem find?_of_plain (t : Tree) (p : Place) (h : name.Plain) :
    t.find? p name = .ok (t.at? (p.child name)) := by
  rw [find?, if_neg (Nat.not_lt.2 h.short)]

theorem readText_join (hlead : t.Leads folder p) (h : folder.Holds name) :
    t.readText (folder.join ⟨name⟩) =
      match t.at? (p.child name) with
      | some (.file content) =>
          match String.fromUTF8? content with
          | some text => .ok text
          | none => .error .notText
      | some .folder => .error .isDirectory
      | none => .error .notFound := by
  simp only [readText, read, resolve_join hlead h, find?_of_plain t p h.plain, bind, Except.bind]
  cases t.at? (p.child name) with
  | none => rfl
  | some e =>
      cases e with
      | file content => cases String.fromUTF8? content <;> rfl
      | folder => rfl

theorem write_join (hlead : t.Leads folder p) (h : folder.Holds name)
    (hnot : t.at? (p.child name) ≠ some .folder) (content : ByteArray) :
    t.write (folder.join ⟨name⟩) content = .ok (t.set (p.child name) (.file content)) := by
  simp only [write, resolve_join hlead h, find?_of_plain t p h.plain, bind, Except.bind]

theorem removeFile_join (hlead : t.Leads folder p) (h : folder.Holds name) :
    t.removeFile (folder.join ⟨name⟩) =
      match t.at? (p.child name) with
      | some (.file _) => .ok (t.clear (p.child name))
      | some .folder => .error .isDirectory
      | none => .error .notFound := by
  simp only [removeFile, resolve_join hlead h, find?_of_plain t p h.plain, bind, Except.bind]
  cases t.at? (p.child name) with
  | none => rfl
  | some e =>
      cases e with
      | file content => simp
      | folder => rfl

theorem moveFile_join {name' : Name} (hlead : t.Leads folder p) (h : folder.Holds name)
    (h' : folder.Holds name') {content : ByteArray}
    (hfile : t.at? (p.child name) = some (.file content))
    (hnot : t.at? (p.child name') ≠ some .folder) :
    t.moveFile (folder.join ⟨name⟩) (folder.join ⟨name'⟩) =
      .ok ((t.clear (p.child name)).set (p.child name') (.file content)) := by
  simp only [moveFile, resolve_join hlead h, resolve_join hlead h', find?_of_plain t p h.plain,
    find?_of_plain t p h'.plain, bind, Except.bind, hfile]
  simp [hnot]

/-- Whether a file can be put into a folder under a name. -/
def Takes (t : Tree) (folder : Path) (p : Place) (name : Name) : Prop :=
  folder.Holds name ∧ t.at? (p.child name) ≠ some .folder

theorem write_join_of_not_takes (hlead : t.Leads folder p) (hplain : name.Plain)
    (h : ¬ t.Takes folder p name) (content : ByteArray) :
    ∃ e, t.write (folder.join ⟨name⟩) content = .error e := by
  by_cases hholds : folder.Holds name
  · have hat : t.at? (p.child name) = some .folder :=
      Decidable.byContradiction fun hne => h ⟨hholds, hne⟩
    exact ⟨.isDirectory, by simp only [write, resolve_join hlead hholds,
      find?_of_plain t p hplain, bind, Except.bind, hat]⟩
  · obtain ⟨e, hresolve⟩ := resolve_join_of_not_holds hplain hholds
    exact ⟨e, by simp only [write, hresolve, bind, Except.bind]⟩

theorem moveFile_join_of_not_takes {name' : Name} (hlead : t.Leads folder p)
    (h : folder.Holds name) {content : ByteArray}
    (hfile : t.at? (p.child name) = some (.file content)) (hplain : name'.Plain)
    (hnot : ¬ t.Takes folder p name') :
    ∃ e, t.moveFile (folder.join ⟨name⟩) (folder.join ⟨name'⟩) = .error e := by
  by_cases hholds : folder.Holds name'
  · have hat : t.at? (p.child name') = some .folder :=
      Decidable.byContradiction fun hne => hnot ⟨hholds, hne⟩
    refine ⟨.isDirectory, ?_⟩
    simp [moveFile, resolve_join hlead h, resolve_join hlead hholds, find?_of_plain t p h.plain,
      find?_of_plain t p hplain, bind, Except.bind, hfile, hat]
  · obtain ⟨e, hresolve⟩ := resolve_join_of_not_holds hplain hholds
    exact ⟨e, by simp only [moveFile, resolve_join hlead h, hresolve, bind, Except.bind]⟩

end Entries

/-! ## Reading what was written -/

theorem resolve_keeps {t t' : Tree} (h : t.KeepsFolders t') {path : Path} {target : Target}
    (hresolve : t.resolve path = .ok target) : t'.resolve path = .ok target := by
  unfold resolve at hresolve ⊢
  by_cases hzero : path.hasZeroByte = true
  · rw [if_pos hzero] at hresolve
    cases hresolve
  by_cases hlimit : Path.limit < path.bytes.length
  · rw [if_neg hzero, if_pos hlimit] at hresolve
    cases hresolve
  rw [if_neg hzero, if_neg hlimit] at hresolve ⊢
  cases hlast : path.steps.getLast? with
  | none => simp [hlast] at hresolve
  | some last =>
      simp only [hlast, bind, Except.bind] at hresolve ⊢
      cases hway : path.steps.dropLast.foldlM t.enter .working with
      | error e => simp [hway] at hresolve
      | ok p =>
          rw [hway] at hresolve
          rw [foldlM_enter_keeps h hway]
          exact hresolve

theorem write_eq_ok {t t' : Tree} {path : Path} {content : ByteArray} :
    t.write path content = .ok t' ↔
      ∃ p name, t.resolve path = .ok (.entry p name false) ∧ name.length ≤ Name.limit ∧
        t.at? (p.child name) ≠ some .folder ∧ t' = t.set (p.child name) (.file content) := by
  constructor
  · intro h
    unfold write at h
    cases hresolve : t.resolve path with
    | error e => simp [hresolve, bind, Except.bind] at h
    | ok target =>
        simp only [hresolve, bind, Except.bind] at h
        split at h
        · rename_i p name
          by_cases hlimit : Name.limit < name.length
          · simp [find?, hlimit] at h
          · simp only [find?, if_neg hlimit] at h
            split at h
            · cases h
            · rename_i hnot
              exact ⟨p, name, rfl, Nat.not_lt.1 hlimit, hnot, (Except.ok.inj h).symm⟩
        · cases h
  · rintro ⟨p, name, hresolve, hshort, hnot, rfl⟩
    simp only [write, hresolve, find?, if_neg (Nat.not_lt.2 hshort), bind, Except.bind]

def Writable (t : Tree) (path : Path) : Prop := ∃ content t', t.write path content = .ok t'

/-- Whether a file can be written does not depend on what is to be written. -/
theorem Writable.write {t : Tree} {path : Path} (h : t.Writable path) (content : ByteArray) :
    ∃ t', t.write path content = .ok t' := by
  obtain ⟨_, _, hwrite⟩ := h
  obtain ⟨p, name, hresolve, hshort, hnot, _⟩ := write_eq_ok.1 hwrite
  exact ⟨_, write_eq_ok.2 ⟨p, name, hresolve, hshort, hnot, rfl⟩⟩

theorem read_write {t t' : Tree} {path : Path} {content : ByteArray}
    (h : t.write path content = .ok t') : t'.read path = .ok content := by
  obtain ⟨p, name, hresolve, hshort, hnot, rfl⟩ := write_eq_ok.1 h
  have hstart := Place.isStart_child p name
  have hagain := resolve_keeps (keepsFolders_set hstart hnot (.file content)) hresolve
  have hat : (t.set (p.child name) (.file content)).at? (p.child name) = some (.file content) := by
    rw [at?_set hstart, if_pos rfl]
  simp [read, hagain, find?, Nat.not_lt.2 hshort, hat, bind, Except.bind]

theorem readText_write {t t' : Tree} {path : Path} {text : String}
    (h : t.write path text.toUTF8 = .ok t') : t'.readText path = .ok text := by
  rw [readText, read_write h]
  simp only [bind, Except.bind, fromUTF8?_toUTF8]

end Tree

end Rendezvous.Files
