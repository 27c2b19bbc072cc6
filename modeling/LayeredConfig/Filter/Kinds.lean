import LayeredConfig.Filter
import LayeredConfig.Pattern.Reading

/-! # Kinds of filters

Filters that hide reserved keys from snapshots, that keep or drop keys by pattern, that mask the
values of sensitive keys, and filters given by a function. -/

namespace LayeredConfig

/-- A pattern, or the complaint that `what` has none. -/
def Pattern.compile (what text : String) : Result Pattern :=
  match Pattern.ofText? text with
  | some p => .ok p
  | none => .error (.malformed what .notPattern)

/-! ### Reserved keys -/

namespace Filter

/-- The priority of the filter that hides reserved keys; it runs ahead of others. -/
def reservedPriority : Int := 10000

/-- Hides reserved keys from snapshots. A single look-up still sees them. -/
def hideReserved : Filter where
  name := "MetadataFilter"
  priority := reservedPriority
  run v ctx := .ok (if !ctx.isSingle && isReserved ctx.key then none else some v)

/-- A filter that vetoes the keys with a property. -/
def veto (name : String) (vetoed : String → Bool) : Filter where
  name := name
  priority := 0
  run v ctx := .ok (if vetoed ctx.key then none else some v)

end Filter

/-! ### Keys by pattern -/

/-- Keeps the keys that an inclusion holds of, or all if there is none, but for those that an
exclusion holds of. -/
structure KeySelection where
  inclusions : List (String → Bool)
  exclusions : List (String → Bool)
  scope : FilterScope := .bulk
  priority : Int := 0

namespace KeySelection

/-- Reads the patterns, the inclusions first. -/
def ofPatterns (inclusions exclusions : List String) : Result KeySelection := do
  let compile (text : String) : Result Pattern := Pattern.compile s!"key pattern '{text}'" text
  let inclusions ← inclusions.mapM compile
  let exclusions ← exclusions.mapM compile
  return {
    inclusions := inclusions.map Pattern.isFoundIn
    exclusions := exclusions.map Pattern.isFoundIn }

/-- Whether a key is kept. -/
def keeps (s : KeySelection) (key : String) : Bool :=
  (s.inclusions.isEmpty || s.inclusions.any fun p => p key)
    && !s.exclusions.any fun p => p key

def toFilter (s : KeySelection) : Filter where
  name := "RegexFilter"
  priority := s.priority
  run v ctx := .ok (if !s.scope.applies ctx || s.keeps ctx.key then some v else none)

end KeySelection

/-! ### Masking -/

/-- What is put in place of masked values. -/
def defaultMask : String := "*****"

/-- Masks the values of the keys that some test calls sensitive. A null stays a null. -/
structure Masking where
  tests : List (String → Bool)
  mask : String := defaultMask
  priority : Int := -100

namespace Masking

def ofPatterns (patterns : List String) : Result Masking := do
  let patterns ← patterns.mapM (Pattern.compile "masking patterns")
  return { tests := patterns.map Pattern.isFoundIn }

/-- Whether the values of a key are masked. -/
def isSensitive (m : Masking) (key : String) : Bool := m.tests.any fun p => p key

def toFilter (m : Masking) : Filter where
  name := "MaskingFilter"
  priority := m.priority
  run v ctx := .ok (some (if v.isNull || !m.isSensitive ctx.key then v else v.withValue m.mask))

end Masking

end LayeredConfig
