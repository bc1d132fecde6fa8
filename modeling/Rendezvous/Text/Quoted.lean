import Rendezvous.Text.Numeral
import Rendezvous.Text.Unseen

/-!
# Quoted texts for messages

A text inside a message stands between double quotes, and what could be misread is
escaped: the quote, the backslash, the usual controls by a letter, and every character
that cannot be seen by its number.
-/

namespace Rendezvous.Text

/-- A character by its number, between braces. -/
def byNumber (c : Char) : List Char := ['\\', 'u', '\x7b'] ++ numeral 16 c.toNat ++ ['\x7d']

/-- One character between the quotes. -/
def quoteChar (c : Char) : List Char :=
  match c with
  | '\x00' => ['\\', '0']
  | '\t' => ['\\', 't']
  | '\r' => ['\\', 'r']
  | '\n' => ['\\', 'n']
  | '\\' => ['\\', '\\']
  | '"' => ['\\', '"']
  | _ => if isUnseen c then byNumber c else [c]

def quote (text : String) : String :=
  String.ofList ('"' :: text.toList.flatMap quoteChar ++ ['"'])

end Rendezvous.Text
