import Rendezvous.Files.Place
import Rendezvous.OrderedMap

/-!
# File trees

Files and folders by their place, and the operations that programs use on them, with the
errors that an operating system answers. Relative paths start at the working folder, and
absolute ones at the root; both are always there.
-/

namespace Rendezvous.Files

inductive Entry where
  | file (content : ByteArray)
  | folder

/-- Files are equal if their bytes are. -/
instance : DecidableEq Entry
  | .file a, .file b =>
      if h : a.data = b.data then isTrue (congrArg Entry.file (ByteArray.ext h))
      else isFalse fun e => h (congrArg ByteArray.data (Entry.file.inj e))
  | .file _, .folder => isFalse nofun
  | .folder, .file _ => isFalse nofun
  | .folder, .folder => isTrue rfl

inductive Error where
  | notFound
  | busy
  | alreadyExists
  | notDirectory
  | isDirectory
  | invalidArgument
  | nameTooLong
  | notEmpty
  | notText
  /-- A path has a zero byte, where the system ends a path. -/
  | zeroByte
  deriving DecidableEq, Repr

def Error.message : Error → String
  | .notFound => "No such file or directory (os error 2)"
  | .busy => "Device or resource busy (os error 16)"
  | .alreadyExists => "File exists (os error 17)"
  | .notDirectory => "Not a directory (os error 20)"
  | .isDirectory => "Is a directory (os error 21)"
  | .invalidArgument => "Invalid argument (os error 22)"
  | .nameTooLong => "File name too long (os error 36)"
  | .notEmpty => "Directory not empty (os error 39)"
  | .notText => "stream did not contain valid UTF-8"
  | .zeroByte => "file name contained an unexpected NUL byte"

structure Tree where
  entries : OrderedMap Place Entry

namespace Tree

def empty : Tree := ⟨.empty⟩

instance : Inhabited Tree := ⟨empty⟩

def at? (t : Tree) (p : Place) : Option Entry :=
  if p.isStart then some .folder else t.entries.find? p

def set (t : Tree) (p : Place) (e : Entry) : Tree := ⟨t.entries.insert p e⟩

def clear (t : Tree) (p : Place) : Tree := ⟨t.entries.erase p⟩

def find? (t : Tree) (folder : Place) (name : Name) : Except Error (Option Entry) :=
  if Name.limit < name.length then .error .nameTooLong else .ok (t.at? (folder.child name))

def enter (t : Tree) (p : Place) (step : Name) : Except Error Place :=
  match p.step? step with
  | some p => .ok p
  | none => do
      match ← t.find? p step with
      | some .folder => .ok (p.child step)
      | some (.file _) => .error .notDirectory
      | none => .error .notFound

inductive Target where
  /-- A folder, by a step that names no entry. -/
  | folder (place : Place) (step : Name)
  /-- An entry of a folder by its name, whether it exists or not. -/
  | entry (folder : Place) (name : Name) (endsInSlash : Bool)

/-- What a path leads to. All folders on the way have to exist. -/
def resolve (t : Tree) (path : Path) : Except Error Target :=
  if path.hasZeroByte then .error .zeroByte
  else if Path.limit < path.bytes.length then .error .nameTooLong
  else
    match path.steps.getLast? with
    | none => .error .notFound
    | some last => do
        let p ← path.steps.dropLast.foldlM t.enter .working
        match p.step? last with
        | some p => .ok (.folder p last)
        | none => .ok (.entry p last path.endsInSlash)

def folderAt? (t : Tree) (path : Path) : Option Place :=
  match t.resolve path with
  | .ok (.folder p _) => some p
  | .ok (.entry p name _) =>
      if t.at? (p.child name) = some .folder then some (p.child name) else none
  | .error _ => none

def read (t : Tree) (path : Path) : Except Error ByteArray := do
  match ← t.resolve path with
  | .folder _ _ => .error .isDirectory
  | .entry p name endsInSlash =>
      match ← t.find? p name with
      | some (.file content) => if endsInSlash then .error .notDirectory else .ok content
      | some .folder => .error .isDirectory
      | none => .error .notFound

def readText (t : Tree) (path : Path) : Except Error String := do
  match String.fromUTF8? (← t.read path) with
  | some text => .ok text
  | none => .error .notText

def write (t : Tree) (path : Path) (content : ByteArray) : Except Error Tree := do
  match ← t.resolve path with
  | .entry p name false =>
      match ← t.find? p name with
      | some .folder => .error .isDirectory
      | _ => .ok (t.set (p.child name) (.file content))
  | _ => .error .isDirectory

def removeFile (t : Tree) (path : Path) : Except Error Tree := do
  match ← t.resolve path with
  | .folder _ _ => .error .isDirectory
  | .entry p name endsInSlash =>
      match ← t.find? p name with
      | some (.file _) =>
          if endsInSlash then .error .notDirectory else .ok (t.clear (p.child name))
      | some .folder => .error .isDirectory
      | none => .error .notFound

/-- Move a file to another place, over the file that stands there. -/
def moveFile (t : Tree) (source target : Path) : Except Error Tree := do
  match ← t.resolve source, ← t.resolve target with
  | .entry p name slashed, .entry q name' slashed' =>
      match ← t.find? p name with
      | some (.file content) => do
          let taken ← t.find? q name'
          if slashed ∨ slashed' then .error .notDirectory
          else if taken = some .folder then .error .isDirectory
          else .ok ((t.clear (p.child name)).set (q.child name') (.file content))
      | some .folder => .error .isDirectory
      | none => .error .notFound
  | _, _ => .error .busy

def makeFolder (t : Tree) (path : Path) : Except Error Tree := do
  match ← t.resolve path with
  | .folder _ _ => .error .alreadyExists
  | .entry p name _ =>
      match ← t.find? p name with
      | some _ => .error .alreadyExists
      | none => .ok (t.set (p.child name) .folder)

def ensureFolder (t : Tree) (path : Path) : Tree × Except Error Unit :=
  match t.makeFolder path with
  | .ok t => (t, .ok ())
  | .error e => (t, if (t.folderAt? path).isSome then .ok () else .error e)

/-- Take steps from a folder on, and make each folder that does not exist. -/
def makeWay (t : Tree) (p : Place) : List Name → Tree × Except Error Place
  | [] => (t, .ok p)
  | step :: steps =>
      match p.step? step with
      | some p => t.makeWay p steps
      | none =>
          match t.find? p step with
          | .error e => (t, .error e)
          | .ok (some .folder) => t.makeWay (p.child step) steps
          | .ok (some (.file _)) => (t, .error .alreadyExists)
          | .ok none => (t.set (p.child step) .folder).makeWay (p.child step) steps

/-- Make a folder, unless it exists. Where the way to it does not exist, its moves but the last
are made first; what is made before a failure stays. -/
def makeFolders (t : Tree) (path : Path) : Tree × Except Error Unit :=
  if path.bytes.isEmpty then (t, .ok ())
  else
    match t.resolve path with
    | .error .notFound =>
        match t.makeWay .working path.moves.dropLast with
        | (t, .ok _) => t.ensureFolder path
        | (t, .error e) => (t, .error e)
    | _ => t.ensureFolder path

/-- A tree without what lies in a folder. -/
def emptied (t : Tree) (folder : Place) : Tree :=
  ⟨t.entries.filter fun p => !p.isInside folder⟩

/-- Remove a folder with all that is inside. A folder that is not named as an entry is only
emptied; one that its own path led through is gone already. -/
def removeFolder (t : Tree) (path : Path) (folder : Place) : Tree × Except Error Unit :=
  let t := t.emptied folder
  match t.resolve path with
  | .ok (.entry p name _) => (t.clear (p.child name), .ok ())
  | .ok (.folder _ step) =>
      (t, .error (if step = Path.here then .invalidArgument
        else if step = Path.above then .notEmpty
        else .busy))
  | .error .notFound => (t, .ok ())
  | .error e => (t, .error e)

def remove (t : Tree) (path : Path) : Tree × Except Error Unit :=
  match t.folderAt? path with
  | some folder => t.removeFolder path folder
  | none =>
      match t.removeFile path with
      | .ok t => (t, .ok ())
      | .error e => (t, .error e)

def names (t : Tree) (folder : Place) : List Name :=
  t.entries.keys.filterMap fun p =>
    if p.depth = folder.depth + 1 ∧ p.parent = folder then p.names.getLast? else none

end Tree

end Rendezvous.Files
