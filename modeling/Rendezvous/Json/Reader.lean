import Rendezvous.Json.Error
import Rendezvous.Text.Size

/-!
# Reading JSON scalars

A reader takes the rest of a text and answers a value and what follows it, or the cause
of the first fault met. Scalars are read against what is expected, so a text of the
wrong kind is named in the refusal. A value of no interest is skipped under a looser
grammar: its escapes and numbers are not evaluated.
-/

namespace Rendezvous.Json

open Text

/-- A reader of `α` from the rest of a text. -/
abbrev Reader (α : Type) := List Char → Except Error (α × List Char)

/-- The four characters that may stand between tokens. -/
def isSpace (c : Char) : Bool :=
  c == ' ' || c == '\n' || c == '\t' || c == '\r'

def skipSpace (text : List Char) : List Char :=
  text.dropWhile isSpace

/-- The rest of a word such as `null`, after its first letter. -/
def readWord : List Char → List Char → Except Error (List Char)
  | [], text => .ok text
  | _ :: _, [] => .error .endInValue
  | expected :: word, c :: text =>
      if c = expected then readWord word text else .error .expectedIdent

/-! ## Strings -/

/-- Whether at least four bytes of text remain. -/
def fourBytesLeft (text : List Char) : Bool :=
  4 ≤ byteCount (text.take 4)

/-- The number in the four hexadecimal digits of an escape. -/
def readHexEscape : List Char → Except Error (Nat × List Char)
  | a :: b :: c :: d :: rest =>
      match digitValue? 16 a, digitValue? 16 b, digitValue? 16 c, digitValue? 16 d with
      | some a, some b, some c, some d => .ok (((a * 16 + b) * 16 + c) * 16 + d, rest)
      | _, _, _, _ => .error .invalidEscape
  | text => if fourBytesLeft text then .error .invalidEscape else .error .endInString

/-- Whether a number is the first half of a surrogate pair. -/
def isLeadingSurrogate (n : Nat) : Bool := 0xd800 ≤ n && n ≤ 0xdbff

/-- Whether a number is the second half of a surrogate pair. -/
def isTrailingSurrogate (n : Nat) : Bool := 0xdc00 ≤ n && n ≤ 0xdfff

/-- The character that a surrogate pair stands for. -/
def pairChar (leading trailing : Nat) : Char :=
  Char.ofNat (0x10000 + (leading - 0xd800) * 0x400 + (trailing - 0xdc00))

/-- The second half of a surrogate pair, after the first. -/
def readTrailingSurrogate (leading : Nat) : Reader Char
  | [] => .error .endInString
  | '\\' :: [] => .error .endInString
  | '\\' :: 'u' :: rest => do
      let (trailing, rest) ← readHexEscape rest
      if isTrailingSurrogate trailing then .ok (pairChar leading trailing, rest)
      else .error .loneSurrogate
  | _ => .error .unfinishedSurrogatePair

/-- The character of an escape, after the backslash. -/
def readEscape : Reader Char
  | [] => .error .endInString
  | '"' :: rest => .ok ('"', rest)
  | '\\' :: rest => .ok ('\\', rest)
  | '/' :: rest => .ok ('/', rest)
  | 'b' :: rest => .ok ('\x08', rest)
  | 'f' :: rest => .ok ('\x0c', rest)
  | 'n' :: rest => .ok ('\n', rest)
  | 'r' :: rest => .ok ('\r', rest)
  | 't' :: rest => .ok ('\t', rest)
  | 'u' :: rest => do
      let (n, rest) ← readHexEscape rest
      if isTrailingSurrogate n then .error .loneSurrogate
      else if isLeadingSurrogate n then readTrailingSurrogate n rest
      else .ok (Char.ofNat n, rest)
  | _ => .error .invalidEscape

/-- The characters of a string up to its closing quote; the first argument bounds their number. -/
def readCharsAux : Nat → List Char → Reader (List Char)
  | 0, _, _ => .error .endInString
  | _ + 1, _, [] => .error .endInString
  | fuel + 1, acc, c :: rest =>
      if c = '"' then .ok (acc.reverse, rest)
      else if c = '\\' then do
        let (c, rest) ← readEscape rest
        readCharsAux fuel (c :: acc) rest
      else if c.toNat < 0x20 then .error .controlCharacter
      else readCharsAux fuel (c :: acc) rest

/-- A string after its opening quote. -/
def readString : Reader String := fun text => do
  let (chars, rest) ← readCharsAux (text.length + 1) [] text
  .ok (String.ofList chars, rest)

/-- Step over an escape without asking what it stands for. -/
def skipEscape : List Char → Except Error (List Char)
  | [] => .error .endInString
  | 'u' :: rest => (readHexEscape rest).map (·.2)
  | c :: rest =>
      if c = '"' ∨ c = '\\' ∨ c = '/' ∨ c = 'b' ∨ c = 'f' ∨ c = 'n' ∨ c = 'r' ∨ c = 't' then
        .ok rest
      else .error .invalidEscape

/-- Step over the characters of a string up to its closing quote. -/
def skipStringAux : Nat → List Char → Except Error (List Char)
  | 0, _ => .error .endInString
  | _ + 1, [] => .error .endInString
  | fuel + 1, c :: rest =>
      if c = '"' then .ok rest
      else if c = '\\' then do skipStringAux fuel (← skipEscape rest)
      else if c.toNat < 0x20 then .error .controlCharacter
      else skipStringAux fuel rest

def skipString (text : List Char) : Except Error (List Char) :=
  skipStringAux (text.length + 1) text

/-! ## Numbers -/

def wordLimit : Nat := UInt64.size

/-- Take digits into `n` for as long as it stays in the unsigned 64-bit range. -/
def takeWord (n : Nat) : List Char → Nat × List Char
  | [] => (n, [])
  | c :: rest =>
      match digitValue? 10 c with
      | none => (n, c :: rest)
      | some d => if n * 10 + d < wordLimit then takeWord (n * 10 + d) rest else (n, c :: rest)

def decimalNumber (isNegative : Bool) (significand : Nat) (power : Int) :
    Except Error Number :=
  match Binary64.ofDecimal? significand power with
  | some magnitude => .ok (.decimal isNegative magnitude)
  | none => .error .numberOutOfRange

/-- The exponent part after its letter, added to `power`. -/
def readExponent (isNegative : Bool) (significand : Nat) (power : Int) (text : List Char) :
    Except Error (Number × List Char) :=
  let (negativeExponent, text) :=
    match text with
    | '+' :: rest => (false, rest)
    | '-' :: rest => (true, rest)
    | _ => (false, text)
  match text with
  | [] => .error .endInValue
  | c :: _ =>
      if isDecimalDigit c then do
        let exponent : Int := Int.ofNat (ofDecimal (text.takeWhile isDecimalDigit))
        let power := if negativeExponent then power - exponent else power + exponent
        let number ← decimalNumber isNegative significand power
        .ok (number, text.dropWhile isDecimalDigit)
      else .error .invalidNumber

/-- The digits after the point; those that no longer fit are dropped. -/
def readFraction (isNegative : Bool) (significand : Nat) (power : Int) (text : List Char) :
    Except Error (Number × List Char) :=
  match text with
  | [] => .error .endInValue
  | c :: _ =>
      if isDecimalDigit c then
        let (significand, rest) := takeWord significand text
        let power := power - Int.ofNat (text.length - rest.length)
        match rest.dropWhile isDecimalDigit with
        | 'e' :: rest => readExponent isNegative significand power rest
        | 'E' :: rest => readExponent isNegative significand power rest
        | rest => do .ok (← decimalNumber isNegative significand power, rest)
      else .error .invalidNumber

/-- An integer without fraction and exponent; zero and what is too low become decimals when
negative. -/
def integerNumber (isNegative : Bool) (n : Nat) : Except Error Number :=
  if !isNegative then .ok (.natural n)
  else if 0 < n ∧ 2 * n ≤ wordLimit then .ok (.negative n)
  else decimalNumber true n 0

def readNumber (isNegative : Bool) (text : List Char) : Except Error (Number × List Char) :=
  match text with
  | [] => .error .endInValue
  | c :: next =>
      if !isDecimalDigit c then .error .invalidNumber
      else if c = '0' ∧ (next.head?.any isDecimalDigit) then .error .invalidNumber
      else
        let (significand, rest) := takeWord 0 text
        let dropped := rest.takeWhile isDecimalDigit
        let power := Int.ofNat dropped.length
        match rest.dropWhile isDecimalDigit with
        | '.' :: rest => readFraction isNegative significand power rest
        | 'e' :: rest => readExponent isNegative significand power rest
        | 'E' :: rest => readExponent isNegative significand power rest
        | rest => do
            if dropped.isEmpty then .ok (← integerNumber isNegative significand, rest)
            else .ok (← decimalNumber isNegative significand power, rest)

/-- Step over an exponent part after its letter. -/
def skipExponent (text : List Char) : Except Error (List Char) :=
  let text :=
    match text with
    | '+' :: rest => rest
    | '-' :: rest => rest
    | _ => text
  if text.head?.any isDecimalDigit then .ok (text.dropWhile isDecimalDigit)
  else .error .invalidNumber

def skipNumber (text : List Char) : Except Error (List Char) :=
  match text with
  | [] => .error .invalidNumber
  | c :: next =>
      if !isDecimalDigit c then .error .invalidNumber
      else if c = '0' ∧ (next.head?.any isDecimalDigit) then .error .invalidNumber
      else
        match text.dropWhile isDecimalDigit with
        | '.' :: rest =>
            if rest.head?.any isDecimalDigit then
              match rest.dropWhile isDecimalDigit with
              | 'e' :: rest => skipExponent rest
              | 'E' :: rest => skipExponent rest
              | rest => .ok rest
            else .error .invalidNumber
        | 'e' :: rest => skipExponent rest
        | 'E' :: rest => skipExponent rest
        | rest => .ok rest

/-! ## Scalars against what is expected -/

/-- The refusal of a token that is not of the kind expected. A token with a fault of its own is
refused for that fault. -/
def unexpected (expected : String) (text : List Char) : Error :=
  let refusal {α : Type} (found : α → Found) (result : Except Error α) : Error :=
    match result with
    | .ok value => .invalidType (found value) expected
    | .error e => e
  match text with
  | [] => .endInValue
  | 'n' :: rest => refusal (fun _ => .null) (readWord ['u', 'l', 'l'] rest)
  | 't' :: rest => refusal (fun _ => .boolean true) (readWord ['r', 'u', 'e'] rest)
  | 'f' :: rest => refusal (fun _ => .boolean false) (readWord ['a', 'l', 's', 'e'] rest)
  | '-' :: rest => refusal (fun r => .number r.1) (readNumber true rest)
  | '"' :: rest => refusal (fun r => .text r.1) (readString rest)
  | '[' :: _ => .invalidType .sequence expected
  | '\x7b' :: _ => .invalidType .map expected
  | c :: _ =>
      if isDecimalDigit c then refusal (fun r => .number r.1) (readNumber false text)
      else .expectedValue

/-- A string where `expected` is what the refusal calls it. -/
def readText (expected : String) : Reader String := fun text =>
  match skipSpace text with
  | '"' :: rest => readString rest
  | text => .error (unexpected expected text)

/-- A string that `parse` gives a meaning to. -/
def readParsed {α : Type} (expected : String) (parse : String → Except String α) : Reader α :=
  fun text => do
    let (s, rest) ← readText expected text
    match parse s with
    | .ok value => .ok (value, rest)
    | .error reason => .error (.refused reason)

def readBoolean : Reader Bool := fun text =>
  match skipSpace text with
  | 't' :: rest => do .ok (true, ← readWord ['r', 'u', 'e'] rest)
  | 'f' :: rest => do .ok (false, ← readWord ['a', 'l', 's', 'e'] rest)
  | text => .error (unexpected "a boolean" text)

/-- The natural number that a number is, if it is one below `limit`. -/
def Number.toNatural (expected : String) (limit : Nat) : Number → Except Error Nat
  | .natural n =>
      if n < limit then .ok n else .error (.invalidValue (.number (.natural n)) expected)
  | .negative n => .error (.invalidValue (.number (.negative n)) expected)
  | n@(.decimal _ _) => .error (.invalidType (.number n) expected)

def readNatural (expected : String) (limit : Nat) : Reader Nat := fun text =>
  match skipSpace text with
  | '-' :: rest => do
      let (number, rest) ← readNumber true rest
      .ok (← number.toNatural expected limit, rest)
  | [] => .error .endInValue
  | c :: rest =>
      if isDecimalDigit c then do
        let (number, rest) ← readNumber false (c :: rest)
        .ok (← number.toNatural expected limit, rest)
      else .error (unexpected expected (c :: rest))

def readUInt16 : Reader UInt16 := fun text => do
  let (n, rest) ← readNatural "u16" UInt16.size text
  .ok (UInt16.ofNat n, rest)

def readUInt32 : Reader UInt32 := fun text => do
  let (n, rest) ← readNatural "u32" UInt32.size text
  .ok (UInt32.ofNat n, rest)

def readUInt64 : Reader UInt64 := fun text => do
  let (n, rest) ← readNatural "u64" UInt64.size text
  .ok (UInt64.ofNat n, rest)

/-! ## Values of no interest -/

mutual

/-- Step over any value; the first argument bounds the number of tokens. -/
def skipValueAux : Nat → List Char → Except Error (List Char)
  | 0, _ => .error .endInValue
  | fuel + 1, text =>
      match skipSpace text with
      | [] => .error .endInValue
      | 'n' :: rest => readWord ['u', 'l', 'l'] rest
      | 't' :: rest => readWord ['r', 'u', 'e'] rest
      | 'f' :: rest => readWord ['a', 'l', 's', 'e'] rest
      | '-' :: rest => skipNumber rest
      | '"' :: rest => skipString rest
      | '[' :: rest =>
          match skipSpace rest with
          | [] => .error .endInList
          | ']' :: rest => .ok rest
          | rest => do skipItemsAux fuel (← skipValueAux fuel rest)
      | '\x7b' :: rest =>
          match skipSpace rest with
          | [] => .error .endInObject
          | '\x7d' :: rest => .ok rest
          | rest => do skipMembersAux fuel (← skipMemberAux fuel rest)
      | c :: rest => if isDecimalDigit c then skipNumber (c :: rest) else .error .expectedValue

/-- Step over the items that follow the first one, and the closing bracket. -/
def skipItemsAux : Nat → List Char → Except Error (List Char)
  | 0, _ => .error .endInList
  | fuel + 1, text =>
      match skipSpace text with
      | [] => .error .endInList
      | ',' :: rest => do skipItemsAux fuel (← skipValueAux fuel rest)
      | ']' :: rest => .ok rest
      | _ => .error .expectedListCommaOrEnd

/-- Step over the members that follow the first one, and the closing brace. -/
def skipMembersAux : Nat → List Char → Except Error (List Char)
  | 0, _ => .error .endInObject
  | fuel + 1, text =>
      match skipSpace text with
      | [] => .error .endInObject
      | ',' :: rest => do skipMembersAux fuel (← skipMemberAux fuel rest)
      | '\x7d' :: rest => .ok rest
      | _ => .error .expectedObjectCommaOrEnd

def skipMemberAux : Nat → List Char → Except Error (List Char)
  | 0, _ => .error .endInObject
  | fuel + 1, text =>
      match skipSpace text with
      | [] => .error .endInObject
      | '"' :: rest => do
          match skipSpace (← skipString rest) with
          | [] => .error .endInObject
          | ':' :: rest => skipValueAux fuel rest
          | _ => .error .expectedColon
      | _ => .error .keyNotString

end

def skipValue (text : List Char) : Except Error (List Char) :=
  skipValueAux (2 * text.length + 1) text

end Rendezvous.Json
