import LayeredConfig.Source

/-! # Tables in memory

A table holds its properties in memory. It serves for defaults and overrides, and it is what a
context writes to: a batch of changes gives a new table and leaves the old one as it was. -/

namespace LayeredConfig

/-- A single write. -/
inductive Change
  | put (key value : String)
  | remove (key : String)
  deriving DecidableEq

/-- Applies a write. -/
def Change.apply (ps : Properties) : Change → Properties
  | put key value => ps.insert key value
  | remove key => ps.erase key

/-- Applies writes one after the other. -/
def Properties.applyAll (ps : Properties) (changes : List Change) : Properties :=
  changes.foldl Change.apply ps

/-- A source in memory. -/
structure Table where
  name : String
  explicitOrdinal : Option Int
  defaultOrdinal : Int
  isScannable : Bool
  pairs : Properties
  deriving DecidableEq

namespace Table

/-- A table of pairs that can be enumerated; a later pair with the same key wins. -/
def ofPairs (name : String) (pairs : List (String × String)) : Table :=
  ⟨name, none, LayeredConfig.defaultOrdinal, true, .ofList pairs⟩

def withOrdinal (t : Table) (ordinal : Int) : Table := { t with explicitOrdinal := some ordinal }

def withDefaultOrdinal (t : Table) (ordinal : Int) : Table := { t with defaultOrdinal := ordinal }

/-- Leaves the table out of enumerations. -/
def lookupOnly (t : Table) : Table := { t with isScannable := false }

def put (t : Table) (key value : String) : Table := { t with pairs := t.pairs.insert key value }

/-- Takes a key out; the value it had comes along. -/
def remove (t : Table) (key : String) : Option String × Table :=
  (t.pairs.get? key, { t with pairs := t.pairs.erase key })

/-- The table after a batch of writes. -/
def withChanges (t : Table) (changes : List Change) : Table :=
  { t with pairs := Properties.applyAll t.pairs changes }

def size (t : Table) : Nat := t.pairs.size

def isEmpty (t : Table) : Bool := t.pairs.isEmpty

/-- What the table gives when it is enumerated. -/
def properties (t : Table) : Properties := if t.isScannable then t.pairs else ∅

def get (t : Table) (key : String) : Option PropertyValue :=
  (t.pairs.get? key).map fun v => .of key v t.name

/-- The table as a source. -/
def toSource (t : Table) (id : Identity) : Source where
  id := id
  name := t.name
  explicitOrdinal := t.explicitOrdinal
  defaultOrdinal := t.defaultOrdinal
  isScannable := t.isScannable
  properties := .ok t.properties
  get := fun key => .ok (t.get key)

@[simp] theorem name_toSource (t : Table) (id : Identity) : (t.toSource id).name = t.name := rfl

@[simp] theorem name_withChanges (t : Table) (cs : List Change) :
    (t.withChanges cs).name = t.name := rfl

/-- Two batches one after the other are one batch. -/
theorem withChanges_append (t : Table) (a b : List Change) :
    t.withChanges (a ++ b) = (t.withChanges a).withChanges b := by
  simp [withChanges, Properties.applyAll]

end Table

end LayeredConfig
