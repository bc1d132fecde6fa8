import Rendezvous.Number.Shortest
import Rendezvous.Text.Quoted

/-!
# Why a JSON text is refused

The causes for which reading a JSON text fails, and the wording of each.
-/

namespace Rendezvous.Json

/-- A number as it stands in a text. -/
inductive Number where
  /-- Written without sign, fraction or exponent, and below `2 ^ 64`. -/
  | natural (value : Nat)
  /-- `-value` with a value between 1 and `2 ^ 63`. -/
  | negative (value : Nat)
  /-- Everything else, as a double-precision number. -/
  | decimal (isNegative : Bool) (magnitude : Binary64)
  deriving DecidableEq, Repr

/-- What stands in a text where something else was expected. -/
inductive Found where
  | null
  | boolean (value : Bool)
  | number (value : Number)
  | text (value : String)
  | sequence
  | map
  deriving DecidableEq, Repr

/-- The causes of a refusal. -/
inductive Error where
  | endInList
  | endInObject
  | endInString
  | endInValue
  | expectedColon
  | expectedListCommaOrEnd
  | expectedObjectCommaOrEnd
  | expectedIdent
  | expectedValue
  | invalidEscape
  | invalidNumber
  | numberOutOfRange
  | controlCharacter
  | keyNotString
  | loneSurrogate
  | unfinishedSurrogatePair
  | trailingComma
  | trailingCharacters
  | invalidType (found : Found) (expected : String)
  | invalidValue (found : Found) (expected : String)
  | invalidLength (length : Nat) (expected : String)
  | missingField (name : String)
  | duplicateField (name : String)
  /-- The text of a scalar means nothing; the reason is the scalar's own. -/
  | refused (reason : String)
  deriving DecidableEq, Repr

/-- Doubles are written without an exponent from `1e-5` up to below `1e16`. -/
def decimalLayout : Shortest.Layout := ⟨-5, 15⟩

def Number.describe : Number → String
  | .natural n => "integer `" ++ String.ofList (Text.decimal n) ++ "`"
  | .negative n => "integer `-" ++ String.ofList (Text.decimal n) ++ "`"
  | .decimal isNegative magnitude =>
      "floating point `" ++ (if isNegative then "-" else "") ++
        String.ofList (Shortest.text decimalLayout magnitude) ++ "`"

def Found.describe : Found → String
  | .null => "null"
  | .boolean true => "boolean `true`"
  | .boolean false => "boolean `false`"
  | .number n => n.describe
  | .text s => "string " ++ Text.quote s
  | .sequence => "sequence"
  | .map => "map"

def Error.message : Error → String
  | .endInList => "EOF while parsing a list"
  | .endInObject => "EOF while parsing an object"
  | .endInString => "EOF while parsing a string"
  | .endInValue => "EOF while parsing a value"
  | .expectedColon => "expected `:`"
  | .expectedListCommaOrEnd => "expected `,` or `]`"
  | .expectedObjectCommaOrEnd => "expected `,` or `\x7d`"
  | .expectedIdent => "expected ident"
  | .expectedValue => "expected value"
  | .invalidEscape => "invalid escape"
  | .invalidNumber => "invalid number"
  | .numberOutOfRange => "number out of range"
  | .controlCharacter => "control character (\\u0000-\\u001F) found while parsing a string"
  | .keyNotString => "key must be a string"
  | .loneSurrogate => "lone leading surrogate in hex escape"
  | .unfinishedSurrogatePair => "unexpected end of hex escape"
  | .trailingComma => "trailing comma"
  | .trailingCharacters => "trailing characters"
  | .invalidType found expected => "invalid type: " ++ found.describe ++ ", expected " ++ expected
  | .invalidValue found expected =>
      "invalid value: " ++ found.describe ++ ", expected " ++ expected
  | .invalidLength length expected =>
      "invalid length " ++ String.ofList (Text.decimal length) ++ ", expected " ++ expected
  | .missingField name => "missing field `" ++ name ++ "`"
  | .duplicateField name => "duplicate field `" ++ name ++ "`"
  | .refused reason => reason

end Rendezvous.Json
