/-
What can be wrong with a JSON text, or with a JSON value that is read as something else, and how
each fault is worded. A fault in a text names its line and column.
-/
import ObjectTiers.Bytes
import ObjectTiers.Json.Value
import ObjectTiers.Json.Shortest
import ObjectTiers.Text.Quoted

namespace ObjectTiers.Json

/-- What stands where something else was expected. -/
inductive Found
  | null
  | bool (b : Bool)
  | number (n : Number)
  | text (s : String)
  | sequence
  | map
  deriving DecidableEq, Repr

/-- What a reader expects. -/
inductive Expected
  | text
  | word16
  | word32
  | sequence
  | record (name : String)
  | recordItems (name : String) (count : Nat)
  | fewerItems
  deriving DecidableEq, Repr

/-- What can be wrong: up to `tooDeep` with a text, then with a value that is read as something
else. `refused` is the fault of an item that cannot be written. -/
inductive Fault
  | endInList | endInObject | endInText | endInValue
  | expectedColon | expectedListEnd | expectedObjectEnd | expectedWord | expectedValue
  | invalidEscape | invalidNumber | numberOutOfRange | invalidCodePoint | controlCharacter
  | keyNotText | loneSurrogate | trailingComma | trailingCharacters | unpairedEscape | tooDeep
  | invalidType (found : Found) (expected : Expected)
  | invalidValue (found : Found) (expected : Expected)
  | invalidLength (length : Nat) (expected : Expected)
  | missingField (name : String)
  | duplicateField (name : String)
  | refused
  deriving DecidableEq, Repr

/-- What a value is where something else was expected. -/
def Found.ofJson : Json → Found
  | .null => .null
  | .bool b => .bool b
  | .number n => .number n
  | .text s => .text s
  | .array _ => .sequence
  | .object _ => .map

/-- What stands there, in words. -/
def Found.message : Found → String
  | .null => "null"
  | .bool b => s!"boolean `{b}`"
  | .number (.integer i) => s!"integer `{i}`"
  | .number (.real x) => "floating point `" ++ String.ofList x.text ++ "`"
  | .text s => "string " ++ Text.quoted s
  | .sequence => "sequence"
  | .map => "map"

/-- What is expected, in words. -/
def Expected.message : Expected → String
  | .text => "a string"
  | .word16 => "u16"
  | .word32 => "u32"
  | .sequence => "a sequence"
  | .record name => s!"struct {name}"
  | .recordItems name count =>
    s!"struct {name} with {count} element" ++ if count = 1 then "" else "s"
  | .fewerItems => "fewer elements in array"

/-- A fault in words, without its place. -/
def Fault.message : Fault → String
  | .endInList => "EOF while parsing a list"
  | .endInObject => "EOF while parsing an object"
  | .endInText => "EOF while parsing a string"
  | .endInValue => "EOF while parsing a value"
  | .expectedColon => "expected `:`"
  | .expectedListEnd => "expected `,` or `]`"
  | .expectedObjectEnd => "expected `,` or `\x7d`"
  | .expectedWord => "expected ident"
  | .expectedValue => "expected value"
  | .invalidEscape => "invalid escape"
  | .invalidNumber => "invalid number"
  | .numberOutOfRange => "number out of range"
  | .invalidCodePoint => "invalid unicode code point"
  | .controlCharacter => "control character (\\u0000-\\u001F) found while parsing a string"
  | .keyNotText => "key must be a string"
  | .loneSurrogate => "lone leading surrogate in hex escape"
  | .trailingComma => "trailing comma"
  | .trailingCharacters => "trailing characters"
  | .unpairedEscape => "unexpected end of hex escape"
  | .tooDeep => "recursion limit exceeded"
  | .invalidType found expected =>
    "invalid type: " ++ found.message ++ ", expected " ++ expected.message
  | .invalidValue found expected =>
    "invalid value: " ++ found.message ++ ", expected " ++ expected.message
  | .invalidLength length expected =>
    s!"invalid length {length}, expected " ++ expected.message
  | .missingField name => s!"missing field `{name}`"
  | .duplicateField name => s!"duplicate field `{name}`"
  | .refused => "refused to serialize"

/-- A fault met while reading a text, with the input from the blamed place on. -/
structure Failure where
  fault : Fault
  rest : Bytes
  deriving DecidableEq, Repr

/-- A fault and its place: the line, counted from one, and the bytes of that line up to it. -/
structure Located where
  fault : Fault
  line : Nat
  column : Nat
  deriving DecidableEq, Repr

/-- The line reached after `read`, and the bytes on it. -/
def position (read : Bytes) : Nat × Nat :=
  (1 + read.count 0x0a, (read.reverse.takeWhile (· != 0x0a)).length)

/-- The fault with its place in the whole text. -/
def Failure.locate (whole : Bytes) (f : Failure) : Located :=
  let (line, column) := position (whole.take (whole.length - f.rest.length))
  ⟨f.fault, line, column⟩

/-- A fault in words, with its place. -/
def Located.message (x : Located) : String :=
  x.fault.message ++ s!" at line {x.line} column {x.column}"

end ObjectTiers.Json
