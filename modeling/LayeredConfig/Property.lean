import LayeredConfig.KeyMap

/-! # Property values

A property value is what a source says about a key: a text, or that the key has explicitly no
value, and notes on where it comes from. Keys that begin with the reserved mark describe the
configuration itself. -/

namespace LayeredConfig

/-- Keys with their texts. -/
abbrev Properties := KeyMap String

/-! ### Reserved keys -/

/-- The mark at the beginning of reserved keys. -/
def reservedMark : String := "_"

/-- The key by which a source states its own ordinal. -/
def ordinalKey : String := "_ordinal"

/-- The end of the key under which a snapshot notes the source of a key. -/
def sourceSuffix : String := ".source"

/-- The note that names the source of a value. -/
def sourceNote : String := "source"

/-- The note that gives the ordinal of that source. -/
def ordinalNote : String := "ordinal"

/-- The note that gives the time of reading. -/
def timestampNote : String := "timestamp"

/-- The time of reading. Times are not told apart. -/
def readingTime : String := "<time>"

/-- Whether a key is reserved. -/
def isReserved (key : String) : Bool := key.toList.head? = some '_'

/-- The key under which a snapshot keeps a note on a key. -/
def noteKey (key note : String) : String := reservedMark ++ key ++ "." ++ note

/-! ### Values -/

/-- The value of a key in a source. Without a text it is an explicit null. -/
structure PropertyValue where
  key : String
  value : Option String
  source : String
  notes : KeyMap String
  deriving DecidableEq

namespace PropertyValue

/-- A value without notes. -/
def of (key value source : String) : PropertyValue := ⟨key, some value, source, ∅⟩

/-- An explicit null. -/
def null (key source : String) : PropertyValue := ⟨key, none, source, ∅⟩

def isNull (v : PropertyValue) : Bool := v.value.isNone

/-- A note on the value. -/
def note? (v : PropertyValue) (note : String) : Option String := v.notes.get? note

def withValue (v : PropertyValue) (value : String) : PropertyValue := { v with value := some value }

def withoutValue (v : PropertyValue) : PropertyValue := { v with value := none }

def withNote (v : PropertyValue) (note text : String) : PropertyValue :=
  { v with notes := v.notes.insert note text }

/-- Notes the source, its ordinal and the time of reading. -/
def annotate (v : PropertyValue) (source : String) (ordinal : Int) : PropertyValue :=
  ((v.withNote sourceNote source).withNote ordinalNote (toString ordinal)).withNote
    timestampNote readingTime

@[simp] theorem key_annotate (v : PropertyValue) (s : String) (o : Int) :
    (v.annotate s o).key = v.key := rfl

@[simp] theorem value_annotate (v : PropertyValue) (s : String) (o : Int) :
    (v.annotate s o).value = v.value := rfl

@[simp] theorem source_annotate (v : PropertyValue) (s : String) (o : Int) :
    (v.annotate s o).source = v.source := rfl

end PropertyValue

end LayeredConfig
