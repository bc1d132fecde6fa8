import Rendezvous.Text.Quoted
import Rendezvous.Text.Split

/-!
# Console output

What a program prints: plain lines, and log lines that are shown only from a certain
level of importance on. A log line cannot steer the terminal that shows it.
-/

namespace Rendezvous.CommandLine

inductive Level where
  | error
  | warn
  | info
  | debug
  | trace
  deriving DecidableEq, Repr

namespace Level

/-- The less important, the higher. -/
def rank : Level → Nat
  | .error => 0
  | .warn => 1
  | .info => 2
  | .debug => 3
  | .trace => 4

def tag : Level → String
  | .error => "ERROR"
  | .warn => "WARN"
  | .info => "INFO"
  | .debug => "DEBUG"
  | .trace => "TRACE"

/-- The level that a word asks for; other words ask for `info`. -/
def ofWord (word : String) : Level :=
  if word = "trace" then .trace
  else if word = "debug" then .debug
  else if word = "warn" then .warn
  else if word = "error" then .error
  else .info

end Level

structure Console where
  shown : Level
  lines : Array String
  deriving DecidableEq, Repr

namespace Console

def new (shown : Level) : Console := ⟨shown, #[]⟩

def linesOf (text : String) : List String :=
  (Text.splitOn '\n' text.toList).map String.ofList

def print (c : Console) (text : String) : Console :=
  { c with lines := c.lines ++ (linesOf text).toArray }

/-- The controls of ASCII that begin or make up a command to a terminal. -/
def steers (c : Char) : Bool := ['\x07', '\x08', '\x0c', '\x1b', '\x7f'].contains c

/-- One character of a log line. What steers a terminal is written by its number, and so are
the controls above ASCII. -/
def logChar (c : Char) : List Char :=
  let n := c.toNat
  if steers c then ['\\', 'x', Text.digitChar (n / 16), Text.digitChar (n % 16)]
  else if 0x80 ≤ n ∧ n < 0xa0 then Text.byNumber c
  else [c]

def log (c : Console) (level : Level) (text : String) : Console :=
  if level.rank ≤ c.shown.rank then
    c.print (level.tag ++ " " ++ String.ofList (text.toList.flatMap logChar))
  else c

def info (c : Console) (text : String) : Console := c.log .info text

end Console

/-- A text with blanks after it, so that it takes up a width. -/
def padRight (width : Nat) (text : String) : String :=
  text ++ String.ofList (List.replicate (width - text.length) ' ')

/-- A text with blanks in front of it, so that it takes up a width. -/
def padLeft (width : Nat) (text : String) : String :=
  String.ofList (List.replicate (width - text.length) ' ') ++ text

end Rendezvous.CommandLine
