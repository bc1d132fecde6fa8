import Rendezvous.Error
import Rendezvous.Files.Tree
import Rendezvous.ServerRecord

/-!
# Stores of server records

Server records live in memory, or in a folder with one file for each domain. A file is
written under another name first and then moved into place.
-/

namespace Rendezvous

open Files Text

inductive Store where
  | memory
  | folder (path : Path)
  deriving DecidableEq

structure Storage where
  memory : OrderedMap UInt32 ServerRecord
  files : Tree

namespace Storage

def empty : Storage := ⟨.empty, .empty⟩

end Storage

namespace Store

def fileName (domain : UInt32) (ending : String) : String :=
  "domain-" ++ domainText domain ++ ending

def recordPath (folder : Path) (domain : UInt32) : Path :=
  folder.join (.ofString (fileName domain ".json"))

/-- The file that a record is written to first. -/
def draftPath (folder : Path) (domain : UInt32) : Path :=
  folder.join (.ofString (fileName domain ".tmp"))

def failure (attempt : String) (path : Path) (e : Files.Error) : StoreError :=
  .io ("Failed to " ++ attempt ++ " " ++ path.display ++ ": " ++ e.message)

def loadFile (files : Tree) (path : Path) : Except StoreError (Option ServerRecord) :=
  match files.readText path with
  | .error .notFound => .ok none
  | .error e => .error (failure "read" path e)
  | .ok text =>
      match ServerRecord.schema.ofString text with
      | .ok record => .ok (some record)
      | .error e => .error (.parse (path.display ++ ": " ++ e.message))

def fileText (record : ServerRecord) : String := record.toJson.pretty

/-- Write a record; what was done before a failure stays done. -/
def saveFile (files : Tree) (folder : Path) (record : ServerRecord) :
    Tree × Except StoreError Unit :=
  match files.makeFolders folder with
  | (files, .error e) => (files, .error (failure "create directory" folder e))
  | (files, .ok ()) =>
      let draft := draftPath folder record.domain
      match files.write draft (fileText record).toUTF8 with
      | .error e => (files, .error (failure "write" draft e))
      | .ok files =>
          match files.moveFile draft (recordPath folder record.domain) with
          | .error e => (files, .error (failure "rename" draft e))
          | .ok files => (files, .ok ())

/-- Remove a file; one that does not exist is no failure. -/
def clearFile (files : Tree) (path : Path) : Tree × Except StoreError Unit :=
  match files.removeFile path with
  | .ok files => (files, .ok ())
  | .error .notFound => (files, .ok ())
  | .error e => (files, .error (failure "delete" path e))

def load (store : Store) (s : Storage) (domain : UInt32) :
    Except StoreError (Option ServerRecord) :=
  match store with
  | .memory => .ok (s.memory.find? domain)
  | .folder path => loadFile s.files (recordPath path domain)

/-- Keep a record, in place of the one of its domain. -/
def save (store : Store) (s : Storage) (record : ServerRecord) :
    Storage × Except StoreError Unit :=
  match store with
  | .memory => ({ s with memory := s.memory.insert record.domain record }, .ok ())
  | .folder path =>
      let (files, result) := saveFile s.files path record
      ({ s with files }, result)

/-- Forget the record of a domain, if there is one. -/
def clear (store : Store) (s : Storage) (domain : UInt32) : Storage × Except StoreError Unit :=
  match store with
  | .memory => ({ s with memory := s.memory.erase domain }, .ok ())
  | .folder path =>
      let (files, result) := clearFile s.files (recordPath path domain)
      ({ s with files }, result)

end Store

end Rendezvous
