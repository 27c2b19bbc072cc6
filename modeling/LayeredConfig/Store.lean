import LayeredConfig.Provider
import LayeredConfig.Source.Table
import LayeredConfig.View

/-! # The state of a context

A store holds what changes in the life of a context: the published set of sources, the last
snapshot, the sources that are registered for good, the one of them that is written to, and the
number of reloads.

Every change is one step on the store: `commit`, `refresh`, and for a reload `startReload` and
`finishReload`, between which others may happen. A reload that finishes after one that was started
later has been published publishes nothing. Snapshots within a step are built by a view in which
resolvers are functions; `readSnapshot` is the step by step reading of a snapshot in a world where
they may act. -/

namespace LayeredConfig

/-- The source that commits write to. -/
structure Writable where
  id : Identity
  table : Table

namespace Writable

def toSource (w : Writable) : Source := w.table.toSource w.id

end Writable

/-- What changes in the life of a context. -/
structure Store where
  /-- The sources that do not come from providers, in the order of registration. -/
  fixed : List Source
  writable : Option Writable
  published : SourceSet
  /-- The last snapshot that was kept. -/
  cached : Option Snapshot
  /-- The number of reloads that were started. -/
  reloads : Nat
  /-- The number of the reload whose sources are published; the first load has the number zero. -/
  publishedReload : Nat

namespace Store

/-- The complaint about a context without a writable source. -/
def noWritable : ConfigError := .notWritable "no writable source registered"

/-- The state after the first load. -/
def initial (fixed : List Source) (writable : Option Writable) (loaded : Loaded) : Store where
  fixed := fixed
  writable := writable
  published := .ofSources (fixed ++ loaded.sources) 1
  cached := none
  reloads := 0
  publishedReload := 0

/-! ### Snapshots -/

/-- The snapshot that was kept, if it is of the published version. -/
def current? (s : Store) : Option Snapshot :=
  s.cached.filter fun c => c.version = s.published.version

/-- Keeps a snapshot, unless the one that is kept is as new. -/
def keep (s : Store) (built : Snapshot) : Store :=
  match s.cached with
  | some c => if built.version ≤ c.version then s else { s with cached := some built }
  | none => { s with cached := some built }

/-- Reads the snapshot of the version published at the time of the call. What is published and what
is cached are looked at one after the other, and both may change before the snapshot is built and
kept. -/
def readSnapshot {m : Type → Type} [Monad m] (v : View m) (published : m SourceSet)
    (cached : m (Option Snapshot)) (keep : Snapshot → m Unit) : m Snapshot := do
  let set ← published
  match (← cached).filter fun c => c.version = set.version with
  | some snapshot => return snapshot
  | none =>
    let built ← v.build set
    keep built
    return built

/-- The snapshot of the published version. -/
def snapshot (v : View Id) (s : Store) : Snapshot := s.current?.getD (v.build s.published).run

/-- The store after that snapshot was read. -/
def seen (v : View Id) (s : Store) : Store :=
  if s.current?.isSome then s else s.keep (s.snapshot v)

/-! ### Changes -/

/-- The version that is published. -/
def version (s : Store) : Nat := s.published.version

/-- Publishes a set of sources under the next version. -/
def publish (s : Store) (set : Nat → SourceSet) : Store :=
  { s with published := set (s.version + 1), cached := none }

/-- The event of a change to the published sources, and the state after both snapshots were read. -/
def between (v : View Id) (old : Snapshot) (s : Store) : ChangeEvent × Store :=
  (.between old (s.snapshot v), s.seen v)

/-- The writable source after a batch of writes: a copy, which is published under the next
version. -/
def written (s : Store) (w : Writable) (changes : List Change) : Writable :=
  ⟨.copy (s.version + 1), w.table.withChanges changes⟩

/-- Puts a copy in the place of the writable source. -/
def replaceWritable (s : Store) (old new : Writable) : Store :=
  { s.publish (s.published.replacing old.id new.toSource) with
    fixed := s.fixed.map fun source => if source.id = old.id then new.toSource else source
    writable := some new }

/-- Applies a batch of writes to the writable source. -/
def commit (v : View Id) (changes : List Change) (s : Store) : Result ChangeEvent × Store :=
  match s.writable with
  | none => (.error noWritable, s)
  | some w =>
    let (event, s') := ((s.seen v).replaceWritable w (s.written w changes)).between v (s.snapshot v)
    (.ok event, s')

/-- Publishes the same sources under a new version, so that the next snapshot reads them again. -/
def refresh (s : Store) : Store := s.publish s.published.withVersion

/-- Takes a number for a reload. -/
def startReload (s : Store) : Nat × Store := (s.reloads + 1, { s with reloads := s.reloads + 1 })

/-- Publishes the fixed sources and those that a reload has loaded. -/
def adopt (s : Store) (number : Nat) (loaded : Loaded) : Store :=
  { s.publish (.ofSources (s.fixed ++ loaded.sources)) with publishedReload := number }

/-- Finishes the reload with a number. It fails when all providers have and there is nothing else,
and it publishes nothing when a reload that was started later has been published. -/
def finishReload (v : View Id) (providers : List Provider) (number : Nat) (loaded : Loaded)
    (s : Store) : Result ChangeEvent × Store :=
  if Provider.allFailed providers loaded && s.fixed.isEmpty then
    (.error (.noSources providers.length), s)
  else if number < s.publishedReload then
    (.ok (.between (s.snapshot v) (s.snapshot v)), s.seen v)
  else
    let (event, s') := ((s.seen v).adopt number loaded).between v (s.snapshot v)
    (.ok event, s')

/-! ### Edits in place -/

/-- The store after a source that it holds was edited from outside. Nothing is published, so a
snapshot that was kept does not show it. -/
def edited (s : Store) (w : Writable) : Store :=
  { s with
    fixed := s.fixed.map fun source => if source.id = w.id then w.toSource else source
    writable := s.writable.map fun current => if current.id = w.id then w else current
    published := s.published.edited w.toSource }

/-! ### What the steps keep -/

@[simp] theorem published_keep (s : Store) (built : Snapshot) :
    (s.keep built).published = s.published := by
  unfold keep
  split
  · split <;> rfl
  · rfl

@[simp] theorem fixed_keep (s : Store) (built : Snapshot) : (s.keep built).fixed = s.fixed := by
  unfold keep
  split
  · split <;> rfl
  · rfl

@[simp] theorem writable_keep (s : Store) (built : Snapshot) :
    (s.keep built).writable = s.writable := by
  unfold keep
  split
  · split <;> rfl
  · rfl

@[simp] theorem published_seen (v : View Id) (s : Store) : (s.seen v).published = s.published := by
  unfold seen
  split <;> simp

@[simp] theorem fixed_seen (v : View Id) (s : Store) : (s.seen v).fixed = s.fixed := by
  unfold seen
  split <;> simp

@[simp] theorem writable_seen (v : View Id) (s : Store) : (s.seen v).writable = s.writable := by
  unfold seen
  split <;> simp

@[simp] theorem version_seen (v : View Id) (s : Store) : (s.seen v).version = s.version := by
  simp [version]

@[simp] theorem version_refresh (s : Store) : s.refresh.version = s.version + 1 := rfl

@[simp] theorem version_adopt (s : Store) (number : Nat) (loaded : Loaded) :
    (s.adopt number loaded).version = s.version + 1 := rfl

@[simp] theorem version_replaceWritable (s : Store) (old new : Writable) :
    (s.replaceWritable old new).version = s.version + 1 := rfl

end Store

end LayeredConfig
