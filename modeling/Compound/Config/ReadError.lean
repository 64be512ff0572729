import Compound.Number.Text
import Compound.Text.Quoted

/-!
Why a configuration text is refused. The causes are told apart here and worded in one
place.
-/
namespace Compound.Config

/-- A value found where another kind was expected. Of a list or an object nothing but the
opening bracket has been looked at. -/
inductive Found where
  | null
  | bool (b : Bool)
  | integer (i : Int)
  | float (n : Number)
  | string (s : String)
  | list
  | object
  deriving DecidableEq, Repr

inductive ReadError where
  | wrongType (found : Found) (expected : String)
  | unknownField (name : String) (fields : List String)
  | duplicateField (name : String)
  | endInValue
  | endInList
  | endInObject
  | endInString
  | colonExpected
  | listCommaExpected
  | objectCommaExpected
  | wordExpected
  | valueExpected
  | trailingComma
  | trailingCharacters
  | keyNotString
  | badNumber
  | numberOutOfRange
  | badEscape
  | loneSurrogate
  | endOfEscape
  | controlCharacter
  deriving DecidableEq, Repr

/-- A word between backticks. -/
def ticked (s : String) : String := "`" ++ s ++ "`"

def Found.describe : Found → String
  | null => "null"
  | bool b => "boolean " ++ ticked (if b then "true" else "false")
  | integer i => "integer " ++ ticked (Decimal.intText i)
  | float n => "floating point " ++ ticked n.pointedText
  | string s => "string " ++ Text.quoted s
  | list => "sequence"
  | object => "map"

/-- The fields that would have been right: two of them are joined by "or". -/
def choice : List String → String
  | [a] => ticked a
  | [a, b] => ticked a ++ " or " ++ ticked b
  | fields => "one of " ++ ", ".intercalate (fields.map ticked)

def ReadError.message : ReadError → String
  | wrongType found expected => "invalid type: " ++ found.describe ++ ", expected " ++ expected
  | unknownField name fields => "unknown field " ++ ticked name ++ ", expected " ++ choice fields
  | duplicateField name => "duplicate field " ++ ticked name
  | endInValue => "EOF while parsing a value"
  | endInList => "EOF while parsing a list"
  | endInObject => "EOF while parsing an object"
  | endInString => "EOF while parsing a string"
  | colonExpected => "expected " ++ ticked ":"
  | listCommaExpected => "expected " ++ ticked "," ++ " or " ++ ticked "]"
  | objectCommaExpected => "expected " ++ ticked "," ++ " or " ++ ticked "\x7d"
  | wordExpected => "expected ident"
  | valueExpected => "expected value"
  | trailingComma => "trailing comma"
  | trailingCharacters => "trailing characters"
  | keyNotString => "key must be a string"
  | badNumber => "invalid number"
  | numberOutOfRange => "number out of range"
  | badEscape => "invalid escape"
  | loneSurrogate => "lone leading surrogate in hex escape"
  | endOfEscape => "unexpected end of hex escape"
  | controlCharacter => "control character (\\u0000-\\u001F) found while parsing a string"

end Compound.Config
