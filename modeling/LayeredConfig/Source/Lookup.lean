import LayeredConfig.Source

/-! # Look-up sources

A look-up source answers for single keys and cannot be enumerated, like a remote store. Its answer
may be that the key is there without a value. -/

namespace LayeredConfig

/-- The source of a function from keys to values; an inner `none` is an explicit null. -/
def Source.lookup (id : Identity) (name : String) (explicitOrdinal : Option Int)
    (find : String → Option (Option String)) : Source where
  id := id
  name := name
  explicitOrdinal := explicitOrdinal
  defaultOrdinal := LayeredConfig.defaultOrdinal
  isScannable := false
  properties := .ok ∅
  get := fun key => .ok ((find key).map fun
    | some v => .of key v name
    | none => .null key name)

/-- The source of a table in which keys may be without a value. Where nulls are not told, such a
key is absent. -/
def Source.lookupIn (id : Identity) (name : String) (explicitOrdinal : Option Int)
    (table : KeyMap (Option String)) (tellsNulls : Bool) : Source :=
  .lookup id name explicitOrdinal fun key =>
    (table.get? key).filter fun value => tellsNulls || value.isSome

end LayeredConfig
