import Rendezvous.Proofs.FileTree

/-!
# Folders that are made

Where the way to a folder ends at a name that nothing stands under, everything behind that
name is missing. Main statements: such a folder is not found, and making it makes every
folder on the way and leaves it empty; making any folder, whether it can be made or not, adds
folders at most.
-/

namespace Rendezvous.Files

def Path.joinAll (folder : Path) (names : List Name) : Path :=
  names.foldl (fun path name => path.join ⟨name⟩) folder

theorem Path.steps_joinAll (folder : Path) {names : List Name} (h : ∀ name ∈ names, name.Plain) :
    (folder.joinAll names).steps = folder.steps ++ names := by
  induction names generalizing folder with
  | nil => exact (List.append_nil _).symm
  | cons name names ih =>
      have hhead := folder.steps_join (h name List.mem_cons_self)
      have hrest := ih (folder.join ⟨name⟩) fun n hn => h n (List.mem_cons_of_mem _ hn)
      rw [hhead, List.append_assoc, List.singleton_append] at hrest
      exact hrest

namespace Place

def descend (p : Place) (names : List Name) : Place := names.foldl child p

theorem depth_descend (p : Place) (names : List Name) :
    (p.descend names).depth = p.depth + names.length := by
  induction names generalizing p with
  | nil => rfl
  | cons name names ih =>
      have hrest : (p.descend (name :: names)).depth = p.depth + 1 + names.length :=
        ih (p.child name)
      rw [hrest, List.length_cons]
      omega

theorem descend_concat (p : Place) (names : List Name) (name : Name) :
    p.descend (names ++ [name]) = (p.descend names).child name := by
  rw [descend, List.foldl_append]
  rfl

theorem descend_cons_ne (p : Place) (name : Name) (names : List Name) :
    p.descend (name :: names) ≠ p := by
  intro heq
  have hdepth := congrArg depth heq
  rw [depth_descend, List.length_cons] at hdepth
  omega

end Place

namespace Tree

/-- Whether nothing stands where the first of some names leads, or anywhere behind it. -/
def Lacks (t : Tree) (p : Place) : List Name → Prop
  | [] => True
  | name :: _ => ∀ rest, t.at? ((p.child name).descend rest) = none

section Making

variable {t : Tree} {p : Place}

theorem lacks_set {name : Name} {names : List Name} (h : t.Lacks p (name :: names)) (e : Entry)
    (more : List Name) : (t.set (p.child name) e).Lacks (p.child name) more := by
  cases more with
  | nil => trivial
  | cons name' _ =>
      intro rest
      have hne := (p.child name).descend_cons_ne name' rest
      have hold := h (name' :: rest)
      rw [at?_set (p.isStart_child name)]
      exact (if_neg hne).trans hold

theorem KeepsFolders.trans {t' t'' : Tree} (h : t.KeepsFolders t') (h' : t'.KeepsFolders t'') :
    t.KeepsFolders t'' := fun q hq => h' q (h q hq)

theorem enter_of_folder {name : Name} (hname : name.Plain)
    (h : t.at? (p.child name) = some .folder) : t.enter p name = .ok (p.child name) := by
  simp only [enter, p.step?_of_plain hname, find?_of_plain t p hname, bind, Except.bind, h]

theorem enter_of_none {name : Name} (hname : name.Plain) (h : t.at? (p.child name) = none) :
    t.enter p name = .error .notFound := by
  simp only [enter, p.step?_of_plain hname, find?_of_plain t p hname, bind, Except.bind, h]

/-- Where all folders are there, going on is all that making a way does. -/
theorem makeWay_of_foldlM {start : Place} {steps : List Name}
    (h : steps.foldlM t.enter start = .ok p) (more : List Name) :
    t.makeWay start (steps.filter (· ≠ Path.here) ++ more) = t.makeWay p more := by
  induction steps generalizing start with
  | nil =>
      cases h
      rfl
  | cons step steps ih =>
      rw [List.foldlM_cons] at h
      cases henter : t.enter start step with
      | error e => simp [henter, bind, Except.bind] at h
      | ok q =>
          rw [henter] at h
          have hrest := ih h
          by_cases hhere : step = Path.here
          · have hstay : q = start := by
              simpa [enter, Place.step?, hhere] using henter.symm
            rw [List.filter_cons_of_neg (by simpa using hhere), ← hstay]
            exact hrest
          · rw [List.filter_cons_of_pos (by simpa using hhere), List.cons_append, makeWay]
            unfold enter at henter
            cases hstep : start.step? step with
            | some q' =>
                rw [hstep] at henter
                cases henter
                exact hrest
            | none =>
                cases hfind : t.find? start step with
                | error e => simp [hstep, hfind, bind, Except.bind] at henter
                | ok found =>
                    simp only [hstep, hfind, bind, Except.bind] at henter
                    cases found with
                    | none => cases henter
                    | some e =>
                        cases e with
                        | file content => cases henter
                        | folder =>
                            cases henter
                            exact hrest

theorem makeWay_of_lacks {names : List Name} {last : Name} (hplain : ∀ name ∈ names, name.Plain)
    (h : t.Lacks p (names ++ [last])) :
    ∃ t', t.makeWay p names = (t', .ok (p.descend names)) ∧ t.KeepsFolders t' ∧
      names.foldlM t'.enter p = .ok (p.descend names) ∧ t'.Lacks (p.descend names) [last] := by
  induction names generalizing t p with
  | nil => exact ⟨t, rfl, fun _ hq => hq, rfl, h⟩
  | cons name names ih =>
      have hname := hplain name List.mem_cons_self
      have hstart := p.isStart_child name
      have hnone : t.at? (p.child name) = none := h []
      have hfolder : (t.set (p.child name) .folder).at? (p.child name) = some .folder := by
        rw [at?_set hstart, if_pos rfl]
      have hset : t.KeepsFolders (t.set (p.child name) .folder) :=
        keepsFolders_set hstart (by simp [hnone]) .folder
      obtain ⟨t', hmade, hkeeps, hway, hlacks⟩ :=
        ih (fun n hn => hplain n (List.mem_cons_of_mem _ hn)) (lacks_set h .folder _)
      refine ⟨t', ?_, hset.trans hkeeps, ?_, hlacks⟩
      · rw [makeWay, p.step?_of_plain hname]
        simp only [find?_of_plain t p hname, hnone]
        exact hmade
      · rw [List.foldlM_cons, enter_of_folder hname (hkeeps _ hfolder)]
        exact hway

/-- Nothing is found behind a name that nothing stands under. -/
theorem foldlM_enter_of_lacks {base : Path} (hlead : t.Leads base p) {names : List Name}
    (hplain : ∀ name ∈ names, name.Plain) (hne : names ≠ []) (h : t.Lacks p names) :
    (base.steps ++ names).foldlM t.enter .working = .error .notFound := by
  unfold Leads at hlead
  cases names with
  | nil => exact absurd rfl hne
  | cons name names =>
      have hnone := enter_of_none (hplain name List.mem_cons_self) (h [])
      rw [List.foldlM_append, hlead]
      simp only [bind, Except.bind, List.foldlM_cons, hnone]

theorem ensureFolder_of_lacks {path : Path} (hzero : path.hasZeroByte = false)
    (hlength : path.bytes.length ≤ Path.limit) {front : List Name} {last : Name}
    (hsteps : path.steps = front ++ [last]) (hlast : last.Plain)
    (hfront : front.foldlM t.enter .working = .ok p) (h : t.Lacks p [last]) :
    ∃ t', t.ensureFolder path = (t', .ok ()) ∧ t'.Leads path (p.child last) ∧
      ∀ name, t'.at? ((p.child last).child name) = none := by
  have hnone : t.at? (p.child last) = none := h []
  have hstart := p.isStart_child last
  have hfolder : (t.set (p.child last) .folder).at? (p.child last) = some .folder := by
    rw [at?_set hstart, if_pos rfl]
  have hkeeps : t.KeepsFolders (t.set (p.child last) .folder) :=
    keepsFolders_set hstart (by simp [hnone]) .folder
  refine ⟨t.set (p.child last) .folder, ?_, ?_, fun name => lacks_set h _ [name] []⟩
  · have hresolve := resolve_of_steps (t := t) hzero hlength hsteps hlast
    rw [hfront] at hresolve
    simp [ensureFolder, makeFolder, hresolve, Except.map, bind, Except.bind,
      find?_of_plain t p hlast, hnone]
  · rw [Leads, hsteps, List.foldlM_append, foldlM_enter_keeps hkeeps hfront]
    simp only [bind, Except.bind, List.foldlM_cons, enter_of_folder hlast hfolder]
    rfl

/-- A folder that only has to be made, with the folders on the way to it, is there once it is
made, and has nothing in it. -/
theorem makeFolders_of_lacks {base : Path} (hlead : t.Leads base p) {names : List Name}
    {last : Name} (hplain : ∀ name ∈ names ++ [last], name.Plain)
    (hzero : (base.joinAll (names ++ [last])).hasZeroByte = false)
    (hlength : (base.joinAll (names ++ [last])).bytes.length ≤ Path.limit)
    (h : t.Lacks p (names ++ [last])) :
    ∃ t', t.makeFolders (base.joinAll (names ++ [last])) = (t', .ok ()) ∧
      t'.Leads (base.joinAll (names ++ [last])) (p.descend (names ++ [last])) ∧
      ∀ name, t'.at? ((p.descend (names ++ [last])).child name) = none := by
  have hnames : ∀ name ∈ names, name.Plain :=
    fun name hname => hplain name (List.mem_append_left _ hname)
  have hlast : last.Plain := hplain last (List.mem_append_right _ List.mem_cons_self)
  have hsteps := base.steps_joinAll hplain
  rw [← List.append_assoc] at hsteps
  generalize base.joinAll (names ++ [last]) = path at hzero hlength hsteps
  obtain ⟨t', hmade, hkeeps, hway, hlacks⟩ := makeWay_of_lacks hnames h
  have hfront : (base.steps ++ names).foldlM t'.enter .working = .ok (p.descend names) := by
    rw [List.foldlM_append, hlead.keeps hkeeps]
    exact hway
  obtain ⟨t'', hensured, hleads, hempty⟩ :=
    ensureFolder_of_lacks hzero hlength hsteps hlast hfront hlacks
  rw [← Place.descend_concat] at hleads hempty
  refine ⟨t'', ?_, hleads, hempty⟩
  have hbytes : path.bytes.isEmpty = false := by
    cases hnil : path.bytes with
    | cons => rfl
    | nil => simp [Path.steps, Path.isAbsolute, Path.splitSlashes, hnil] at hsteps
  have hresolve := resolve_of_steps (t := t) hzero hlength hsteps hlast
  rw [makeFolders, hbytes, if_neg Bool.false_ne_true, hresolve]
  cases names with
  | nil =>
      -- The way is there, so that it does not have to be made.
      cases hmade
      rw [List.append_nil, show base.steps.foldlM t.enter .working = .ok p from hlead]
      exact hensured
  | cons name names =>
      have hmissing := foldlM_enter_of_lacks hlead hnames (List.cons_ne_nil _ _) h
      have hmoves : path.moves.dropLast =
          base.steps.filter (· ≠ Path.here) ++ (name :: names) := by
        have hkept : ∀ n ∈ (name :: names) ++ [last], decide (n ≠ Path.here) = true :=
          fun n hn => decide_eq_true (hplain n hn).ne_here
        rw [Path.moves, hsteps, List.append_assoc, List.filter_append,
          List.filter_eq_self.2 hkept, ← List.append_assoc, List.dropLast_concat]
      rw [hmissing]
      simp only [Except.map]
      rw [hmoves, makeWay_of_foldlM hlead, hmade]
      exact hensured

end Making

/-! ## What making a folder leaves alone -/

def AddsFolders (t t' : Tree) : Prop :=
  ∀ q, t'.at? q = t.at? q ∨ t.at? q = none ∧ t'.at? q = some .folder

theorem AddsFolders.refl (t : Tree) : t.AddsFolders t := fun _ => .inl rfl

theorem AddsFolders.trans {t t' t'' : Tree} (h : t.AddsFolders t') (h' : t'.AddsFolders t'') :
    t.AddsFolders t'' := by
  intro q
  rcases h' q with hsame' | ⟨hnone, hfolder⟩
  · rw [hsame']
    exact h q
  · rcases h q with hsame | ⟨_, hfolder'⟩
    · exact .inr ⟨hsame ▸ hnone, hfolder⟩
    · rw [hnone] at hfolder'
      cases hfolder'

theorem addsFolders_of_find? {t : Tree} {p : Place} {name : Name}
    (h : t.find? p name = .ok none) : t.AddsFolders (t.set (p.child name) .folder) := by
  have hnone : t.at? (p.child name) = none := by
    unfold find? at h
    split at h
    · cases h
    · exact Except.ok.inj h
  intro q
  rw [at?_set (p.isStart_child name)]
  split
  · rename_i hq
    exact .inr ⟨hq ▸ hnone, rfl⟩
  · exact .inl rfl

theorem addsFolders_makeWay (t : Tree) (p : Place) (steps : List Name) :
    t.AddsFolders (t.makeWay p steps).1 := by
  induction steps generalizing t p with
  | nil => exact .refl t
  | cons step steps ih =>
      unfold makeWay
      cases p.step? step with
      | some p' => exact ih t p'
      | none =>
          cases hfind : t.find? p step with
          | error e => exact .refl t
          | ok found =>
              match found with
              | some .folder => exact ih t _
              | some (.file _) => exact .refl t
              | none => exact (addsFolders_of_find? hfind).trans (ih _ _)

theorem addsFolders_makeFolder {t t' : Tree} {path : Path} (h : t.makeFolder path = .ok t') :
    t.AddsFolders t' := by
  unfold makeFolder at h
  cases hresolve : t.resolve path with
  | error e => simp [hresolve, bind, Except.bind] at h
  | ok target =>
      cases target with
      | folder p step => simp [hresolve, bind, Except.bind] at h
      | entry p name slashed =>
          cases hfind : t.find? p name with
          | error e => simp [hresolve, hfind, bind, Except.bind] at h
          | ok found =>
              cases found with
              | some e => simp [hresolve, hfind, bind, Except.bind] at h
              | none =>
                  simp only [hresolve, hfind, bind, Except.bind, Except.ok.injEq] at h
                  exact h ▸ addsFolders_of_find? hfind

theorem addsFolders_ensureFolder (t : Tree) (path : Path) :
    t.AddsFolders (t.ensureFolder path).1 := by
  unfold ensureFolder
  cases hmake : t.makeFolder path with
  | error e => exact .refl t
  | ok t' => exact addsFolders_makeFolder hmake

theorem addsFolders_makeFolders (t : Tree) (path : Path) :
    t.AddsFolders (t.makeFolders path).1 := by
  unfold makeFolders
  split
  · exact .refl t
  · split
    · have hway := t.addsFolders_makeWay .working path.moves.dropLast
      split
      · rename_i t' _ hmade
        rw [hmade] at hway
        exact hway.trans (t'.addsFolders_ensureFolder path)
      · rename_i hmade
        rw [hmade] at hway
        exact hway
    · exact t.addsFolders_ensureFolder path

end Tree

end Rendezvous.Files
