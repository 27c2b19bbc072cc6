import LayeredConfig.Error
import LayeredConfig.Property
import LayeredConfig.Text.Characters
import LayeredConfig.Text.Lines

/-! # Lines of keys and values

A document with a setting on each line: a key, an equals sign or a colon, and a value. Blanks
around key and value say nothing. A line that is empty but for blanks says nothing either, and
neither does one that begins with a number sign or an exclamation mark. -/

namespace LayeredConfig.KeyValue

open LayeredConfig.Text

/-- Whether a character sets the key apart from the value. -/
def isSeparator (c : Char) : Bool := c = '=' || c = ':'

/-- Whether a line without blanks at its ends says nothing. -/
def isSilent : List Char → Bool
  | [] => true
  | c :: _ => c = '#' || c = '!'

/-- Why a line is no setting. -/
inductive LineFault
  | noSeparator
  | emptyKey
  deriving DecidableEq

/-- The text of a fault. -/
def LineFault.message : LineFault → String
  | noSeparator => "expected 'key=value'"
  | emptyKey => "empty key"

/-- The setting on a line, which may be none. -/
def readLine (line : List Char) : Except LineFault (Option (String × String)) :=
  let line := trim line
  if isSilent line then .ok none
  else
    match cutAt? isSeparator line with
    | none => .error .noSeparator
    | some (key, value) =>
      if trim key = [] then .error .emptyKey
      else .ok (some (String.ofList (trim key), String.ofList (trim value)))

/-- Reads lines from the one with the given number on, and adds their settings to `pairs`. The first
line at fault ends the reading. -/
def readLines (number : Nat) (pairs : Properties) :
    List (List Char) → Except (Nat × LineFault) Properties
  | [] => .ok pairs
  | line :: rest =>
    match readLine line with
    | .error fault => .error (number, fault)
    | .ok none => readLines (number + 1) pairs rest
    | .ok (some (key, value)) => readLines (number + 1) (pairs.insert key value) rest

/-- The settings of a document, or its first line at fault, counted from one. -/
def read (text : String) : Except (Nat × LineFault) Properties := readLines 1 ∅ (lines text.toList)

/-- The settings of the document named `origin`. -/
def parse (origin text : String) : Result Properties :=
  match read text with
  | .ok pairs => .ok pairs
  | .error (number, fault) =>
    let complaint := fault.message
    .error (.malformed origin (.said s!"line {number}: {complaint}"))

end LayeredConfig.KeyValue
