import LayeredConfig.Error
import LayeredConfig.Number.Binary64
import LayeredConfig.Number.Integer
import LayeredConfig.Text.Characters

/-! # Typed values

Values are texts; a program asks for them as integers of a width, floating point numbers, truth
values, characters or texts. Blanks at the ends of a value say nothing. A failure tells the value
as it was, with its blanks. -/

namespace LayeredConfig

open Number (IntegerKind IntegerFault Binary64)

/-- What a value is asked for as. -/
inductive Target
  | integer (kind : IntegerKind)
  | float
  | boolean
  | character
  | text
  deriving DecidableEq

/-- A value as what it was asked for. -/
inductive Typed
  | integer (n : Int)
  | float (x : Binary64)
  | boolean (b : Bool)
  | character (c : Char)
  | text (s : String)
  deriving DecidableEq

namespace Target

/-- The name of a target. -/
def name : Target → String
  | integer ⟨true, bits⟩ => "i" ++ toString bits
  | integer ⟨false, bits⟩ => "u" ++ toString bits
  | float => "f64"
  | boolean => "bool"
  | character => "char"
  | text => "string"

/-- The targets that can be asked for. -/
def all : List Target :=
  ([8, 16, 32, 64, 128].flatMap fun bits => [.integer ⟨false, bits⟩, .integer ⟨true, bits⟩])
    ++ [float, boolean, character, text]

/-- The target of a name. -/
def ofName? (name : String) : Option Target := all.find? fun t => t.name = name

end Target

/-- What is said about a text that is no integer of a kind. -/
def integerComplaint : IntegerFault → String
  | .empty => "cannot parse integer from empty string"
  | .invalidDigit => "invalid digit found in string"
  | .tooLarge => "number too large to fit in target type"
  | .tooSmall => "number too small to fit in target type"

/-- Reads a text without blanks at its ends, or says what is wrong with it. -/
def Target.read (cs : List Char) : Target → Except String Typed
  | integer kind => ((Number.readInteger kind cs).mapError integerComplaint).map .integer
  | float =>
    if cs.isEmpty then .error "cannot parse float from empty string"
    else
      match Number.readBinary64? cs with
      | some x => .ok (.float x)
      | none => .error "invalid float literal"
  | boolean =>
    if cs = "true".toList then .ok (.boolean true)
    else if cs = "false".toList then .ok (.boolean false)
    else .error "provided string was not `true` or `false`"
  | character =>
    match cs with
    | [] => .error "cannot parse char from empty string"
    | [c] => .ok (.character c)
    | _ => .error "too many characters in string"
  | text => .ok (.text (String.ofList cs))

/-- The value of a key as a target. -/
def convert (key raw : String) (target : Target) : Result Typed :=
  (target.read (Text.trim raw.toList)).mapError fun complaint =>
    .notConvertible key raw target.name complaint

end LayeredConfig
