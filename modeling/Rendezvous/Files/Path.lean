/-!
# File paths

A path is a row of bytes with slashes between its steps. It has a text if its bytes are
well-formed UTF-8.
-/

namespace Rendezvous.Files

structure Path where
  bytes : List UInt8
  deriving DecidableEq

abbrev Name := List UInt8

def Name.ofString (text : String) : Name := text.toUTF8.data.toList

def Name.limit : Nat := 255

namespace Path

def limit : Nat := 4095

def ofString (text : String) : Path := ⟨text.toUTF8.data.toList⟩

instance : Inhabited Path := ⟨ofString ""⟩

def text? (p : Path) : Option String := String.fromUTF8? ⟨p.bytes.toArray⟩

theorem text?_ofString (text : String) : (ofString text).text? = some text := by
  simp [ofString, text?, String.fromUTF8?, text.isValidUTF8, String.fromUTF8]

/-- The text for messages; bytes that spell no text are shown as one replacement character. -/
def display (p : Path) : String := p.text?.getD "\ufffd"

def hasZeroByte (p : Path) : Bool := p.bytes.contains 0

def slash : UInt8 := 47

def splitSlashes : List UInt8 → List Name
  | [] => [[]]
  | b :: rest =>
      if b = slash then [] :: splitSlashes rest
      else
        match splitSlashes rest with
        | [] => [[b]]
        | name :: names => (b :: name) :: names

def here : Name := Name.ofString "."

def above : Name := Name.ofString ".."

def root : Name := [slash]

def isAbsolute (p : Path) : Bool := p.bytes.head? == some slash

/-- A slash behind the last step says that it leads to a folder. -/
def endsInSlash (p : Path) : Bool := p.bytes.getLast? == some slash

/-- The steps that a path takes. A slash in front is a step to the root; other slashes only
divide. -/
def steps (p : Path) : List Name :=
  let names := (splitSlashes p.bytes).filter (!·.isEmpty)
  if p.isAbsolute then root :: names else names

/-- The steps that lead away from where they are taken. -/
def moves (p : Path) : List Name := p.steps.filter (· ≠ here)

/-- The path to an entry of a folder; an absolute one needs no folder. -/
def join (folder entry : Path) : Path :=
  if entry.isAbsolute ∨ folder.bytes.isEmpty then entry
  else if folder.endsInSlash then ⟨folder.bytes ++ entry.bytes⟩
  else ⟨folder.bytes ++ slash :: entry.bytes⟩

end Path

end Rendezvous.Files
