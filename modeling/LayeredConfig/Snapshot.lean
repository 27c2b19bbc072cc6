import LayeredConfig.Property

/-! # Snapshots and their changes

A snapshot is the whole configuration at one version. Two of them are compared key by key, and the
changes between them are told in key order. -/

namespace LayeredConfig

/-- The configuration at one version. -/
structure Snapshot where
  values : Properties
  /-- Notes on the values, under the keys that `noteKey` gives them. -/
  metadata : Properties
  version : Nat
  deriving DecidableEq

namespace Snapshot

def get? (s : Snapshot) (key : String) : Option String := s.values.get? key

def contains (s : Snapshot) (key : String) : Bool := s.values.contains key

/-- The name of the source that a key comes from. -/
def sourceOf? (s : Snapshot) (key : String) : Option String :=
  s.metadata.get? (noteKey key sourceNote)

end Snapshot

/-- What happened to a key. -/
inductive ChangeKind
  | added
  | removed
  | updated
  deriving DecidableEq

/-- A key that changed, with its value before and after. -/
structure KeyChange where
  key : String
  kind : ChangeKind
  old : Option String
  new : Option String
  deriving DecidableEq

/-- The change of a key that had one value and now has another, if it is one. -/
def KeyChange.between (key : String) (old new : Option String) : Option KeyChange :=
  match old, new with
  | none, some _ => some ⟨key, .added, old, new⟩
  | some _, none => some ⟨key, .removed, old, new⟩
  | some a, some b => if a = b then none else some ⟨key, .updated, old, new⟩
  | none, none => none

/-- The changes between two versions. -/
structure ChangeEvent where
  oldVersion : Nat
  newVersion : Nat
  changes : List KeyChange
  deriving DecidableEq

namespace ChangeEvent

/-- The keys of either of two maps, in order. -/
def keysOf (old new : Properties) : List String :=
  (new.insertAll old.toList).keys

/-- What changed from one snapshot to another. -/
def between (old new : Snapshot) : ChangeEvent where
  oldVersion := old.version
  newVersion := new.version
  changes := (keysOf old.values new.values).filterMap fun key =>
    KeyChange.between key (old.get? key) (new.get? key)

/-- Whether nothing changed. -/
def isEmpty (e : ChangeEvent) : Bool := e.changes.isEmpty

/-- The change of a key. -/
def change? (e : ChangeEvent) (key : String) : Option KeyChange :=
  e.changes.find? fun c => c.key = key

end ChangeEvent

end LayeredConfig
