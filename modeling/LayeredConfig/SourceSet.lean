import LayeredConfig.Order.Sort
import LayeredConfig.Source

/-! # Sets of sources

A set of sources keeps them in ascending precedence, by ordinal and then by name, under the version
it was published with. A source's ordinal is resolved once, when it is registered. Single keys are
looked up from the highest precedence down, and `merge` enumerates from the lowest up, so the
highest wins either way. -/

namespace LayeredConfig

/-- A source with the ordinal it was registered with. -/
structure Registered where
  source : Source
  ordinal : Int

namespace Registered

/-- Registers a source under the ordinal it has now. -/
def of (source : Source) : Registered := ⟨source, source.ordinal⟩

def name (r : Registered) : String := r.source.name

/-- Notes on a value that it comes from here. -/
def annotate (r : Registered) (v : PropertyValue) : PropertyValue := v.annotate r.name r.ordinal

/-- Whether one source has at most the precedence of another. -/
def notAbove (a b : Registered) : Bool :=
  a.ordinal < b.ordinal || (a.ordinal = b.ordinal && a.name ≤ b.name)

/-- The value of a key in the source, with notes. A failure is passed over. -/
def lookup (r : Registered) (key : String) : Option PropertyValue :=
  (r.source.get key).skip.join.map r.annotate

/-- The values that the source adds to a merge, with notes. -/
def scan (r : Registered) : List (String × PropertyValue) :=
  if r.source.isScannable then
    match r.source.properties with
    | .ok ps => ps.entries.map fun p => (p.1, r.annotate (.of p.1 p.2 r.name))
    | .error _ => []
  else []

theorem notAbove_preorder : Order.Preorder notAbove where
  trans a b c := by
    simp only [notAbove, Bool.or_eq_true, Bool.and_eq_true, decide_eq_true_eq]
    rintro (h | ⟨h, hn⟩) (h' | ⟨h', hn'⟩)
    · exact .inl (by omega)
    · exact .inl (by omega)
    · exact .inl (by omega)
    · exact .inr ⟨by omega, String.le_trans hn hn'⟩
  total a b := by
    simp only [notAbove, Bool.or_eq_true, Bool.and_eq_true, decide_eq_true_eq]
    rcases Int.lt_trichotomy a.ordinal b.ordinal with h | h | h
    · exact .inl (.inl h)
    · exact (String.le_total a.name b.name).imp (fun hn => .inr ⟨h, hn⟩) fun hn => .inr ⟨h.symm, hn⟩
    · exact .inr (.inl h)

end Registered

/-- Merges sources given in ascending precedence; a later source wins. -/
def merge (entries : List Registered) : KeyMap PropertyValue :=
  entries.foldl (fun merged r => merged.insertAll r.scan) ∅

/-- Keeps the first source of each name. -/
def distinctNames : List Source → List Source
  | [] => []
  | s :: rest => s :: (distinctNames rest).filter fun t => t.name ≠ s.name

/-- Sources in ascending precedence, and the version they were published under. -/
structure SourceSet where
  entries : List Registered
  version : Nat

namespace SourceSet

/-- Registers sources and sorts them. A source whose name is taken is dropped. -/
def ofSources (sources : List Source) (version : Nat) : SourceSet :=
  ⟨Order.sort Registered.notAbove ((distinctNames sources).map Registered.of), version⟩

/-- Puts a source into the place of the one with the identity `old`. The others keep the ordinals
they were registered with. -/
def replacing (set : SourceSet) (old : Identity) (new : Source) (version : Nat) : SourceSet :=
  ⟨Order.sort Registered.notAbove
    (set.entries.map fun r => if r.source.id = old then .of new else r), version⟩

/-- The same sources under another version. -/
def withVersion (set : SourceSet) (version : Nat) : SourceSet := { set with version }

/-- The set after one of its sources was edited in place: whatever is registered under the source's
identity now answers like it, under the ordinal it was registered with. -/
def edited (set : SourceSet) (source : Source) : SourceSet :=
  { set with
    entries := set.entries.map fun r => if r.source.id = source.id then { r with source } else r }

def size (set : SourceSet) : Nat := set.entries.length

def isEmpty (set : SourceSet) : Bool := set.entries.isEmpty

/-- Names and ordinals in ascending precedence. -/
def summary (set : SourceSet) : List (String × Int) := set.entries.map fun r => (r.name, r.ordinal)

/-- All values of the sources that can be enumerated. -/
def merge (set : SourceSet) : KeyMap PropertyValue := LayeredConfig.merge set.entries

/-- The answers for a key, the highest precedence first. -/
def answers (set : SourceSet) (key : String) : List PropertyValue :=
  set.entries.reverse.filterMap (·.lookup key)

/-- The value of a key: the highest that is not null, else the highest null. -/
def lookup (set : SourceSet) (key : String) : Option PropertyValue :=
  let found := set.answers key
  (found.find? fun v => !v.isNull).or found.head?

@[simp] theorem version_ofSources (sources : List Source) (version : Nat) :
    (ofSources sources version).version = version := rfl

@[simp] theorem version_replacing (set : SourceSet) (old : Identity) (new : Source)
    (version : Nat) : (set.replacing old new version).version = version := rfl

@[simp] theorem version_withVersion (set : SourceSet) (version : Nat) :
    (set.withVersion version).version = version := rfl

@[simp] theorem entries_withVersion (set : SourceSet) (version : Nat) :
    (set.withVersion version).entries = set.entries := rfl

@[simp] theorem withVersion_version (set : SourceSet) : set.withVersion set.version = set := rfl

/-- Entries come in ascending precedence. -/
theorem pairwise_entries_ofSources (sources : List Source) (version : Nat) :
    (ofSources sources version).entries.Pairwise fun a b => Registered.notAbove a b = true :=
  Order.pairwise_sort Registered.notAbove_preorder _

end SourceSet

end LayeredConfig
