import Rendezvous.Json.Reader

/-!
# Reading JSON records

A record is read from an object, whose members may come in any order, or from an array
that holds its fields in their own order. Members with other names are stepped over. The
fields met are collected in a draft; what the draft still lacks at the end is for the
schema to decide.
-/

namespace Rendezvous.Json

structure Field (σ : Type) where
  name : String
  isSet : σ → Bool
  read : σ → Reader σ

/-- The field kept in one optional part of a draft. -/
def Field.of {σ β : Type} (name : String) (get : σ → Option β) (set : β → σ → σ)
    (read : Reader β) : Field σ where
  name := name
  isSet draft := (get draft).isSome
  read draft text := do
    let (value, rest) ← read text
    .ok (set value draft, rest)

structure Schema (σ α : Type) where
  /-- What a refusal calls the record. -/
  label : String
  fields : List (Field σ)
  blank : σ
  /-- The record of a draft, or the name of the first field missing. -/
  finish : σ → Except String α

namespace Schema

variable {σ α : Type}

def readColon (text : List Char) : Except Error (List Char) :=
  match skipSpace text with
  | [] => .error .endInObject
  | c :: rest => if c = ':' then .ok rest else .error .expectedColon

/-- The member of an object, after the opening quote of its name. -/
def readMember (s : Schema σ α) (draft : σ) : Reader σ := fun text => do
  let (name, rest) ← readString text
  match s.fields.find? (·.name == name) with
  | some field =>
      if field.isSet draft then .error (.duplicateField name)
      else field.read draft (← readColon rest)
  | none => .ok (draft, ← skipValue (← readColon rest))

/-- The opening quote of a name that has to follow a comma. -/
def readNextName (text : List Char) : Except Error (List Char) :=
  match skipSpace text with
  | [] => .error .endInValue
  | c :: rest =>
      if c = '"' then .ok rest
      else .error (if c = '\x7d' then .trailingComma else .keyNotString)

/-- The members that follow the first, and the closing brace; the first argument bounds their
number. -/
def readMembersAux (s : Schema σ α) : Nat → σ → Reader σ
  | 0, _, _ => .error .endInObject
  | fuel + 1, draft, text =>
      match skipSpace text with
      | [] => .error .endInObject
      | c :: rest =>
          if c = '\x7d' then .ok (draft, rest)
          else if c = ',' then do
            let (draft, rest) ← s.readMember draft (← readNextName rest)
            readMembersAux s fuel draft rest
          else .error .expectedObjectCommaOrEnd

/-- The members of an object after its opening brace, and the closing one. -/
def readMembers (s : Schema σ α) : Reader σ := fun text =>
  match skipSpace text with
  | [] => .error .endInObject
  | c :: rest =>
      if c = '\x7d' then .ok (s.blank, rest)
      else if c = '"' then do
        let (draft, rest) ← s.readMember s.blank rest
        s.readMembersAux rest.length draft rest
      else .error .keyNotString

/-- Whether an item of an array follows, and the text from there on. The closing bracket is left
in the text. -/
def nextItem (isFirst : Bool) (text : List Char) : Except Error (Bool × List Char) :=
  match skipSpace text with
  | [] => .error .endInList
  | c :: rest =>
      if c = ']' then .ok (false, c :: rest)
      else if isFirst then .ok (true, c :: rest)
      else if c = ',' then
        match skipSpace rest with
        | [] => .error .endInValue
        | c :: rest => if c = ']' then .error .trailingComma else .ok (true, c :: rest)
      else .error .expectedListCommaOrEnd

/-- The items of an array as the fields in their order, and how many there were. -/
def readItems (isFirst : Bool) : List (Field σ) → σ → List Char →
    Except Error (Nat × σ × List Char)
  | [], draft, text => .ok (0, draft, text)
  | field :: fields, draft, text => do
      let (more, rest) ← nextItem isFirst text
      if more then
        let (draft, rest) ← field.read draft rest
        let (count, draft, rest) ← readItems false fields draft rest
        .ok (count + 1, draft, rest)
      else .ok (0, draft, rest)

def readBracket (text : List Char) : Except Error (List Char) :=
  match skipSpace text with
  | [] => .error .endInList
  | c :: rest =>
      if c = ']' then .ok rest
      else if c = ',' then
        match skipSpace rest with
        | [] => .error .trailingCharacters
        | c :: _ => .error (if c = ']' then .trailingComma else .trailingCharacters)
      else .error .trailingCharacters

def arrayLabel (s : Schema σ α) : String :=
  s.label ++ " with " ++ String.ofList (Text.decimal s.fields.length) ++ " elements"

def read (s : Schema σ α) : Reader α := fun text =>
  match skipSpace text with
  | [] => .error .endInValue
  | c :: rest =>
      if c = '\x7b' then do
        let (draft, rest) ← s.readMembers rest
        match s.finish draft with
        | .ok record => .ok (record, rest)
        | .error name => .error (.missingField name)
      else if c = '[' then do
        let (count, draft, rest) ← readItems true s.fields s.blank rest
        match s.finish draft with
        | .ok record => .ok (record, ← readBracket rest)
        | .error _ => .error (.invalidLength count s.arrayLabel)
      else .error (unexpected s.label (c :: rest))

def ofString (s : Schema σ α) (text : String) : Except Error α := do
  let (record, rest) ← s.read text.toList
  if (skipSpace rest).isEmpty then .ok record else .error .trailingCharacters

end Schema

end Rendezvous.Json
