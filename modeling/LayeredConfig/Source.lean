import LayeredConfig.Error
import LayeredConfig.Number.Integer
import LayeredConfig.Property
import LayeredConfig.Text.Characters

/-! # Sources

A source gives properties: all of them at once, and the value of a single key. The two ways need
not agree, either may fail, and a source that cannot be enumerated takes part in single look-ups
only. Where sources hold the same key the ordinal decides; a source's `ordinal` is the one set on
it, else the one it states under the reserved key, else its default. -/

namespace LayeredConfig

/-! ### Ordinals of the kinds of sources -/

def defaultOrdinal : Int := 0

def environmentOrdinal : Int := 300

def argumentsOrdinal : Int := 400

def overrideOrdinal : Int := 1000

/-- What makes a source the object it is, whatever its name and its properties. -/
inductive Identity
  /-- A source that was given to the library. -/
  | object (number : Nat)
  /-- A source read from a file. -/
  | file (path : String)
  /-- The copy of a writable source that was published under a version. -/
  | copy (version : Nat)
  deriving DecidableEq

/-- A producer of properties. -/
structure Source where
  id : Identity
  name : String
  explicitOrdinal : Option Int
  defaultOrdinal : Int
  isScannable : Bool
  properties : Result Properties
  get : String → Result (Option PropertyValue)

namespace Source

/-- Reads a single key out of the enumeration. -/
def getThrough (name : String) (properties : Result Properties) (key : String) :
    Result (Option PropertyValue) :=
  properties.map fun ps => (ps.get? key).map fun v => .of key v name

/-- An ordinal as a text: an integer of 32 bits with blanks around it. -/
def readOrdinal? (text : String) : Option Int :=
  (Number.readInteger ⟨true, 32⟩ (Text.trim text.toList)).toOption

/-- The ordinal that the source states under the reserved key. -/
def statedOrdinal? (s : Source) : Option Int := do
  let found ← (s.get ordinalKey).skip
  let value ← found
  let text ← value.value
  readOrdinal? text

/-- The effective ordinal. -/
def ordinal (s : Source) : Int :=
  s.explicitOrdinal.getD (s.statedOrdinal?.getD s.defaultOrdinal)

/-- A source given by its enumeration alone. -/
def enumerated (id : Identity) (name : String) (explicitOrdinal : Option Int)
    (properties : Result Properties) : Source where
  id := id
  name := name
  explicitOrdinal := explicitOrdinal
  defaultOrdinal := LayeredConfig.defaultOrdinal
  isScannable := true
  properties := properties
  get := getThrough name properties

/-- A source of pairs, or one that cannot be enumerated and so cannot be read at all. -/
def ofPairs (id : Identity) (name : String) (explicitOrdinal : Option Int)
    (pairs : List (String × String)) (fails : Bool) : Source :=
  enumerated id name explicitOrdinal
    (if fails then .error (.sourceFailed name "cannot enumerate") else .ok (.ofList pairs))

/-- The source without its single look-ups, all of which fail. -/
def withoutLookups (s : Source) : Source :=
  { s with get := fun key => .error (.sourceFailed s.name ("cannot look up " ++ key)) }

end Source

end LayeredConfig
