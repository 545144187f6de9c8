import DocTree.Json.Number
import DocTree.Text.Quoted

/-!
Why a JSON text is refused: a defect of the text itself, or a value that is not of the kind or
the shape that the reader of a record asked for.
-/

namespace DocTree.Json

inductive Defect where
  | endInValue
  | endInObject
  | endInList
  | endInString
  | valueExpected
  | wordExpected
  | colonExpected
  | listCommaExpected
  | objectCommaExpected
  | keyNotString
  | trailingComma
  | trailingCharacters
  | badNumber
  | numberOutOfRange
  | badEscape
  | loneSurrogate
  | unpairedSurrogate
  | controlCharacter
  | tooDeep
  deriving DecidableEq

def Defect.message : Defect → String
  | .endInValue => "EOF while parsing a value"
  | .endInObject => "EOF while parsing an object"
  | .endInList => "EOF while parsing a list"
  | .endInString => "EOF while parsing a string"
  | .valueExpected => "expected value"
  | .wordExpected => "expected ident"
  | .colonExpected => "expected \x60:\x60"
  | .listCommaExpected => "expected \x60,\x60 or \x60]\x60"
  | .objectCommaExpected => "expected \x60,\x60 or \x60\x7d\x60"
  | .keyNotString => "key must be a string"
  | .trailingComma => "trailing comma"
  | .trailingCharacters => "trailing characters"
  | .badNumber => "invalid number"
  | .numberOutOfRange => "number out of range"
  | .badEscape => "invalid escape"
  | .loneSurrogate => "lone leading surrogate in hex escape"
  | .unpairedSurrogate => "unexpected end of hex escape"
  | .controlCharacter => "control character (\\u0000-\\u001F) found while parsing a string"
  | .tooDeep => "recursion limit exceeded"

/-- What stands at the place where a value begins: a whole scalar, or the bracket that opens an
array or an object. -/
inductive Lexeme where
  | null
  | bool (b : Bool)
  | num (n : Number)
  | str (s : String)
  | openList
  | openObject

/-- A word or number set off in a message. -/
def marked (s : String) : String := "\x60" ++ s ++ "\x60"

def Lexeme.describe : Lexeme → String
  | .null => "null"
  | .bool b => "boolean " ++ marked (if b then "true" else "false")
  | .num (.int n) => "integer " ++ marked (toString n.val)
  | .num (.float x) => "floating point " ++ marked (Number.float x).text
  | .str s => "string " ++ Text.quote s
  | .openList => "sequence"
  | .openObject => "map"

inductive Expected where
  | string
  | boolean
  | signed
  | size
  | sequence
  | map
  | record (name : String)
  deriving DecidableEq

def Expected.describe : Expected → String
  | .string => "a string"
  | .boolean => "a boolean"
  | .signed => "i64"
  | .size => "usize"
  | .sequence => "a sequence"
  | .map => "a map"
  | .record name => "struct " ++ name

inductive ReadError where
  | malformed (defect : Defect)
  | wrongKind (found : Lexeme) (expected : Expected)
  | wrongRange (found : Integer) (expected : Expected)
  | missingField (name : String)
  | repeatedField (name : String)
  | tooShort (found : Nat) (record : String) (size : Nat)
  | noVariant (union : String)

def ReadError.message : ReadError → String
  | .malformed defect => defect.message
  | .wrongKind found expected =>
    "invalid type: " ++ found.describe ++ ", expected " ++ expected.describe
  | .wrongRange found expected =>
    "invalid value: " ++ (Lexeme.num (.int found)).describe ++ ", expected " ++ expected.describe
  | .missingField name => "missing field " ++ marked name
  | .repeatedField name => "duplicate field " ++ marked name
  | .tooShort found record size =>
    "invalid length " ++ toString found ++ ", expected struct " ++ record ++
      " with " ++ toString size ++ " elements"
  | .noVariant union => "data did not match any variant of untagged enum " ++ union

end DocTree.Json
