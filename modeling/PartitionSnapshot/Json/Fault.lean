import PartitionSnapshot.Bytes
import PartitionSnapshot.Text.Quoted

/-!
# Faults in JSON

Why a JSON text cannot be read, or does not hold what is wanted of it, and at which line and column
this shows.
-/

namespace PartitionSnapshot.Json

/-! ## Causes -/

/-- What stands where another value is wanted. -/
inductive Found where
  | null
  | bool (value : Bool)
  | natural (value : Nat)
  | negative (magnitude : Nat)
  /-- A number that is not an integer of 64 bits, in words. -/
  | fraction (number : String)
  | string (text : String)
  | array
  | object
  deriving DecidableEq, Repr

/-- What was found, in words. -/
def Found.message : Found → String
  | .null => "null"
  | .bool value => "boolean `" ++ toString value ++ "`"
  | .natural value => "integer `" ++ toString value ++ "`"
  | .negative magnitude => "integer `-" ++ toString magnitude ++ "`"
  | .fraction number => "floating point `" ++ number ++ "`"
  | .string text => "string " ++ Text.quoted text
  | .array => "sequence"
  | .object => "map"

/-- Why reading stops. -/
inductive Cause where
  /-- The text ends inside an array. -/
  | endInArray
  /-- The text ends inside an object. -/
  | endInObject
  /-- The text ends inside a string. -/
  | endInString
  /-- The text ends where a value is wanted, or inside one. -/
  | endInValue
  | noColon
  | noElementEnd
  | noMemberEnd
  | unknownWord
  | noValue
  | badEscape
  | badNumber
  | numberTooLarge
  | notUtf8
  | controlCharacter
  | nameNotString
  /-- A half of a surrogate pair stands without the other one. -/
  | loneSurrogate
  /-- The first half of a surrogate pair is not followed by an escape. -/
  | noSecondHalf
  | trailingComma
  | trailingCharacters
  | wrongType (found : Found) (wanted : String)
  | outsideRange (found : Found) (wanted : String)
  /-- An array has too few elements for the fields it stands for. -/
  | tooFew (count : Nat) (wanted : String)
  | unknownChoice (name : String) (choices : List String)
  | missing (name : String)
  | repeated (name : String)
  deriving DecidableEq, Repr

/-- A name between accents. -/
def accented (name : String) : String := "`" ++ name ++ "`"

/-- The choices that there are, in words. -/
def choiceList : List String → String
  | [one, other] => accented one ++ " or " ++ accented other
  | choices => "one of " ++ ", ".intercalate (choices.map accented)

/-- The cause in words. -/
def Cause.message : Cause → String
  | .endInArray => "EOF while parsing a list"
  | .endInObject => "EOF while parsing an object"
  | .endInString => "EOF while parsing a string"
  | .endInValue => "EOF while parsing a value"
  | .noColon => "expected `:`"
  | .noElementEnd => "expected `,` or `]`"
  | .noMemberEnd => "expected `,` or `\x7d`"
  | .unknownWord => "expected ident"
  | .noValue => "expected value"
  | .badEscape => "invalid escape"
  | .badNumber => "invalid number"
  | .numberTooLarge => "number out of range"
  | .notUtf8 => "invalid unicode code point"
  | .controlCharacter =>
    "control character (\\u0000-\\u001F) found while parsing a string"
  | .nameNotString => "key must be a string"
  | .loneSurrogate => "lone leading surrogate in hex escape"
  | .noSecondHalf => "unexpected end of hex escape"
  | .trailingComma => "trailing comma"
  | .trailingCharacters => "trailing characters"
  | .wrongType found wanted => s!"invalid type: {found.message}, expected {wanted}"
  | .outsideRange found wanted => s!"invalid value: {found.message}, expected {wanted}"
  | .tooFew count wanted => s!"invalid length {count}, expected {wanted}"
  | .unknownChoice name choices =>
    s!"unknown variant {accented name}, expected {choiceList choices}"
  | .missing name => s!"missing field {accented name}"
  | .repeated name => s!"duplicate field {accented name}"

/-! ## Places -/

/-- Why a JSON text does not hold what a reader wants, and where this shows. -/
structure Fault where
  cause : Cause
  /-- The line, from one on. -/
  line : Nat
  /-- How many bytes of the line lie before the place. -/
  column : Nat
  deriving DecidableEq, Repr

/-- The fault in words. -/
def Fault.message (fault : Fault) : String :=
  s!"{fault.cause.message} at line {fault.line} column {fault.column}"

/-- Where reading stops, and why. -/
structure Stop where
  cause : Cause
  /-- What of the text follows the place. -/
  rest : Bytes
  deriving DecidableEq, Repr

/-- The fault that a stop inside a text is. -/
def Stop.locate (text : Bytes) (stop : Stop) : Fault :=
  let before := text.take (text.length - stop.rest.length)
  { cause := stop.cause
    line := before.count 0x0A + 1
    column := (before.reverse.takeWhile (· ≠ 0x0A)).length }

end PartitionSnapshot.Json
