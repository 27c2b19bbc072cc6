import LayeredConfig.Source
import LayeredConfig.Text.Lines
import LayeredConfig.Text.LetterCase

/-! # Environment variables

A source of environment variables can keep to the variables with a given beginning, which is taken
off their names, and can bring names into the form of keys: lower case, with points for
underscores. A variable whose name is used up is left out. -/

namespace LayeredConfig

/-- A source of variables, in the order in which they are enumerated. -/
structure Environment where
  name : String := "env"
  vars : List (String × String)
  leading : Option String := none
  isNormalized : Bool := false
  explicitOrdinal : Option Int := none

namespace Environment

open LayeredConfig.Text

/-- Takes the given beginning off a name. -/
def stripLeading? (e : Environment) (var : String) : Option (List Char) :=
  match e.leading with
  | none => some var.toList
  | some leading => after? leading.toList var.toList

/-- A name in the form of a key. -/
def normalize (cs : List Char) : List Char := (lower cs).map fun c => if c = '_' then '.' else c

/-- The key of a variable. -/
def key? (e : Environment) (var : String) : Option String :=
  match e.stripLeading? var with
  | none | some [] => none
  | some cs => some (String.ofList (if e.isNormalized then normalize cs else cs))

/-- The variables under their keys. -/
def pairs (e : Environment) : List (String × String) :=
  e.vars.filterMap fun v => (e.key? v.1).map (·, v.2)

/-- All properties; of two variables with one key the later wins. -/
def properties (e : Environment) : Properties := .ofList e.pairs

/-- The value of a key. Where names are keys as they are, the variable itself is asked. -/
def get (e : Environment) (key : String) : Option PropertyValue :=
  let found :=
    if e.leading.isNone && !e.isNormalized then (KeyMap.ofList e.vars).get? key
    else e.properties.get? key
  found.map fun v => .of key v e.name

/-- The variables as a source. -/
def toSource (e : Environment) (id : Identity) : Source where
  id := id
  name := e.name
  explicitOrdinal := e.explicitOrdinal
  defaultOrdinal := environmentOrdinal
  isScannable := true
  properties := .ok e.properties
  get := fun key => .ok (e.get key)

end Environment

end LayeredConfig
