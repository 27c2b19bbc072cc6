import LayeredConfig.Evaluator
import LayeredConfig.Filter
import LayeredConfig.Snapshot
import LayeredConfig.SourceSet

/-! # Views of a set of sources

A view says how configuration is read from a set of sources: which filters the values pass, which
resolvers answer placeholders, and what stands for placeholders without an answer. Single keys are
looked up, filtered and resolved on their own (`get`), and a snapshot merges, filters and resolves
all of them (`build`). Either way placeholders see the same set of sources through the filters of
single keys. -/

namespace LayeredConfig

/-- How configuration is read, in a world that resolvers may act on. -/
structure View (m : Type → Type) where
  pipeline : Pipeline
  evaluator : Evaluator m
  /-- Whether placeholders without an answer are masked. -/
  mask : Bool

namespace View

variable {m : Type → Type}

/-- The filtered value of a key, with its placeholders. -/
def lookup (v : View m) (set : SourceSet) (key : String) : Option PropertyValue :=
  (set.lookup key).bind v.pipeline.applySingle

/-- What placeholders see of a set of sources. -/
def scope (v : View m) (set : SourceSet) : Scope :=
  .of fun key => (v.lookup set key).bind (·.value)

variable [Monad m]

/-- The text of a key's value without placeholders. -/
def resolve (v : View m) (set : SourceSet) (key raw : String) : m String :=
  v.evaluator.resolveKey v.mask (v.scope set) key raw

/-- The value of a key without placeholders. A null stays a null. -/
def getValue (v : View m) (set : SourceSet) (key : String) : m (Option PropertyValue) :=
  match v.lookup set key with
  | none => return none
  | some value =>
    match value.value with
    | none => return some value
    | some raw => do return some (value.withValue (← v.resolve set key raw))

/-- The text of a key. A null has none. -/
def get (v : View m) (set : SourceSet) (key : String) : m (Option String) := do
  return (← v.getValue set key).bind (·.value)

/-! ### Snapshots -/

/-- The keys with a text that pass the filters of snapshots. -/
def visible (v : View m) (set : SourceSet) : List (String × PropertyValue) :=
  (v.pipeline.applyBulk set.merge).entries.filter fun p => !p.2.isNull

/-- The notes on a value under the keys of a snapshot. -/
def notes (key : String) (value : PropertyValue) : List (String × String) :=
  value.notes.entries.map fun n => (noteKey key n.1, n.2)

/-- The snapshot of a set of sources. -/
def build (v : View m) (set : SourceSet) : m Snapshot := do
  let visible := v.visible set
  let values ← visible.mapM fun p => do
    return (p.1, ← v.resolve set p.1 (p.2.value.getD ""))
  return {
    values := .ofList values
    metadata := .ofList (visible.flatMap fun p => notes p.1 p.2)
    version := set.version }

end View

end LayeredConfig
