import Rendezvous.Text.Numeral

/-!
# Command-line arguments

What a user asks for on the command line. Options may stand in front of the task or
after it; one that is given in both places counts as given after the task. An option is
given once at most in each place, with its value behind an equals sign, directly after
its letter, or as the next argument.
-/

namespace Rendezvous.CommandLine

open Text

inductive Setting where
  | config
  | stateDir
  | logLevel
  | domain
  | pause
  deriving DecidableEq, Repr

structure Values where
  config : Option String
  stateDir : Option String
  logLevel : Option String
  domain : Option UInt32
  pause : Option UInt64
  deriving DecidableEq, Repr

def Values.blank : Values := ⟨none, none, none, none, none⟩

inductive TaskName where
  | status
  | clear
  | demo
  deriving DecidableEq, Repr

namespace TaskName

def all : List TaskName := [.status, .clear, .demo]

def word : TaskName → String
  | .status => "status"
  | .clear => "clear"
  | .demo => "demo"

def ofWord? (w : String) : Option TaskName := all.find? (·.word == w)

end TaskName

inductive Task where
  | status (domain : UInt32)
  | clear (domain : UInt32)
  /-- Run a server among simulated participants, pausing for a number of milliseconds. -/
  | demo (domain : UInt32) (pause : UInt64)
  deriving DecidableEq, Repr

structure Invocation where
  config : Option String
  stateDir : Option String
  logLevel : String
  task : Task
  deriving DecidableEq, Repr

inductive Request where
  | run (invocation : Invocation)
  | help
  | version
  | misuse
  deriving DecidableEq, Repr

inductive Token where
  | setting (setting : Setting) (attached : Option String)
  | help
  | version
  /-- The mark after which no options follow. -/
  | endOfOptions
  | word (text : String)
  | unknown
  deriving DecidableEq, Repr

/-- The option with a long name, in front of a task or after one. -/
def Setting.ofName? (task : Option TaskName) (name : String) : Option Setting :=
  if name = "config" then some .config
  else if name = "state-dir" then some .stateDir
  else if name = "log-level" then some .logLevel
  else if name = "domain" ∧ task.isSome then some .domain
  else if name = "pause-ms" ∧ task = some .demo then some .pause
  else none

/-- The option with a letter, in front of a task or after one. -/
def Setting.ofLetter? (task : Option TaskName) (letter : Char) : Option Setting :=
  if letter = 'c' then some .config
  else if letter = 'd' ∧ task.isSome then some .domain
  else none

def Token.ofLong (task : Option TaskName) (text : List Char) : Token :=
  let name := String.ofList (text.takeWhile (· ≠ '='))
  let attached :=
    match text.dropWhile (· ≠ '=') with
    | [] => none
    | _ :: value => some (String.ofList value)
  match Setting.ofName? task name with
  | some option => .setting option attached
  | none =>
      if attached.isSome then .unknown
      else if name = "help" then .help
      else if name = "version" ∧ task.isNone then .version
      else .unknown

def Token.ofShort (task : Option TaskName) (letter : Char) (text : List Char) : Token :=
  match Setting.ofLetter? task letter with
  | some option =>
      .setting option (match text with
        | [] => none
        | '=' :: value => some (String.ofList value)
        | value => some (String.ofList value))
  | none =>
      if letter = 'h' then .help
      else if letter = 'V' ∧ task.isNone then .version
      else .unknown

/-- An argument on its own, in front of a task or after one. -/
def Token.of (task : Option TaskName) (argument : String) : Token :=
  match argument.toList with
  | ['-', '-'] => .endOfOptions
  | '-' :: '-' :: text => .ofLong task text
  | '-' :: letter :: text => .ofShort task letter text
  | _ => .word argument

/-- The value of a row of decimal digits, if it is one. -/
def natural? (text : List Char) : Option Nat :=
  if text.isEmpty ∨ !text.all isDecimalDigit then none else some (ofDecimal text)

def integer? : List Char → Option Int
  | '-' :: text => (natural? text).map fun n => -Int.ofNat n
  | '+' :: text => (natural? text).map Int.ofNat
  | text => (natural? text).map Int.ofNat

def domain? (text : String) : Option UInt32 := do
  let n ← integer? text.toList
  if 0 ≤ n ∧ n < UInt32.size then some (.ofNat n.toNat) else none

def pause? (text : String) : Option UInt64 := do
  let n ← match text.toList with
    | '+' :: text => natural? text
    | text => natural? text
  if n < UInt64.size then some (.ofNat n) else none

/-- Give an option its value; refuses a second value, and one that makes no sense. -/
def Values.set (v : Values) (setting : Setting) (text : String) : Option Values :=
  match setting with
  | .config => if v.config.isSome ∨ text.isEmpty then none else some { v with config := some text }
  | .stateDir =>
      if v.stateDir.isSome ∨ text.isEmpty then none else some { v with stateDir := some text }
  | .logLevel => if v.logLevel.isSome then none else some { v with logLevel := some text }
  | .domain =>
      if v.domain.isSome then none else (domain? text).map fun n => { v with domain := some n }
  | .pause =>
      if v.pause.isSome then none else (pause? text).map fun n => { v with pause := some n }

inductive Reading where
  | ended (values : Values)
  /-- A word follows that is no value of an option. -/
  | word (values : Values) (word : String) (rest : List String)
  | settled (request : Request)
  deriving DecidableEq, Repr

def readOptions (task : Option TaskName) (v : Values) : List String → Reading
  | [] => .ended v
  | [argument] =>
      match Token.of task argument with
      | .setting setting (some text) =>
          match v.set setting text with
          | some v => .ended v
          | none => .settled .misuse
      | .help => .settled .help
      | .version => .settled .version
      | .endOfOptions => .ended v
      | .word text => .word v text []
      | _ => .settled .misuse
  | argument :: next :: rest =>
      match Token.of task argument with
      | .setting setting (some text) =>
          match v.set setting text with
          | some v => readOptions task v (next :: rest)
          | none => .settled .misuse
      | .setting setting none =>
          match Token.of task next with
          | .word text =>
              match v.set setting text with
              | some v => readOptions task v rest
              | none => .settled .misuse
          | _ => .settled .misuse
      | .help => .settled .help
      | .version => .settled .version
      | .word text => .word v text (next :: rest)
      | _ => .settled .misuse

def helpOn : List String → Request
  | [] => .help
  | [word] => if (TaskName.ofWord? word).isSome ∨ word = "help" then .help else .misuse
  | _ => .misuse

/-- A task with the values given in front of it and after it. -/
def invocation (front back : Values) (name : TaskName) : Invocation where
  config := back.config <|> front.config
  stateDir := back.stateDir <|> front.stateDir
  logLevel := (back.logLevel <|> front.logLevel).getD "info"
  task :=
    let domain := back.domain.getD 0
    match name with
    | .status => .status domain
    | .clear => .clear domain
    | .demo => .demo domain (back.pause.getD 200)

def Request.of (arguments : List String) : Request :=
  match readOptions none .blank arguments with
  | .settled request => request
  | .ended _ => .misuse
  | .word front word rest =>
      match TaskName.ofWord? word with
      | none => if word = "help" then helpOn rest else .misuse
      | some name =>
          match readOptions (some name) .blank rest with
          | .settled request => request
          | .word _ _ _ => .misuse
          | .ended back => .run (invocation front back name)

end Rendezvous.CommandLine
