import LayeredConfig.Proofs.Store.Steps

/-! # Courses of a context

What happens to a context, in any order: batches of writes are committed, the same sources are
published again, reloads take their numbers and come to their ends with whatever they have loaded,
snapshots are read, and a reading that began with an older set keeps the snapshot it has built of
it. A course goes on by one `Step` at a time, each of which is a step of the store; `Run` is any
number of them, with the list of what has occurred and of what the callers were told.

A reload that is under way has a number and no end yet. Nothing else is asked of the order, so
reloads overlap, one in the loads of another included, and commits fall in between. -/

namespace LayeredConfig

/-- A store, and every set of sources that it has published, the last one first. -/
structure Course where
  store : Store
  past : List SourceSet

namespace Course

def start (s : Store) : Course := ⟨s, [s.published]⟩

/-- The course once its store has become another. -/
def moved (c : Course) (s : Store) : Course :=
  ⟨s, if s.version = c.store.version then c.past else s.published :: c.past⟩

@[simp] theorem store_start (s : Store) : (start s).store = s := rfl

@[simp] theorem store_moved (c : Course) (s : Store) : (c.moved s).store = s := rfl

end Course

/-- What has happened to a context, with what the caller was told. -/
inductive Occurrence
  /-- A batch of writes was to be committed. -/
  | committed (changes : List Change) (outcome : Result ChangeEvent)
  /-- The same sources were published again. -/
  | refreshed
  /-- A reload took its number and began to load. -/
  | started (number : Nat)
  /-- The reload with a number came to its end with what it has loaded. -/
  | finished (number : Nat) (loaded : Loaded) (outcome : Result ChangeEvent)
  /-- The snapshot was read. -/
  | read (snapshot : Snapshot)
  /-- A reading that began with an older set came to its end. -/
  | kept (snapshot : Snapshot)

namespace Occurrence

/-- Whether a new version was published. A reload that publishes nothing tells of the version that
it has found and of no other. -/
def publishes : Occurrence → Bool
  | committed _ (.ok _) => true
  | refreshed => true
  | finished _ _ (.ok event) => event.oldVersion ≠ event.newVersion
  | _ => false

/-- The writes that have been committed. -/
def batch? : Occurrence → Option (List Change)
  | committed changes (.ok _) => some changes
  | _ => none

end Occurrence

/-- The batches that have been committed, in the order of the commits. -/
def batches (os : List Occurrence) : List (List Change) := os.filterMap Occurrence.batch?

theorem batches_concat_of_none {os : List Occurrence} {o : Occurrence} (h : o.batch? = none) :
    batches (os ++ [o]) = batches os := by
  simp [batches, h]

theorem batches_concat_committed (os : List Occurrence) (changes : List Change)
    (event : ChangeEvent) :
    batches (os ++ [.committed changes (.ok event)]) = batches os ++ [changes] := by
  simp [batches, Occurrence.batch?]

namespace Course

/-- Whether a reload has a number and no end yet. -/
def UnderWay (os : List Occurrence) (number : Nat) : Prop :=
  .started number ∈ os ∧ ∀ loaded outcome, .finished number loaded outcome ∉ os

/-- What may happen to a context behind all that has happened. -/
inductive Step (v : View Id) (providers : List Provider) (os : List Occurrence) (c : Course) :
    Occurrence → Course → Prop
  | commit (changes : List Change) :
    Step v providers os c (.committed changes (c.store.commit v changes).1)
      (c.moved (c.store.commit v changes).2)
  | refresh : Step v providers os c .refreshed (c.moved c.store.refresh)
  | start : Step v providers os c (.started c.store.startReload.1) (c.moved c.store.startReload.2)
  | finish {number : Nat} (loaded : Loaded) (h : UnderWay os number) :
    Step v providers os c
      (.finished number loaded (c.store.finishReload v providers number loaded).1)
      (c.moved (c.store.finishReload v providers number loaded).2)
  | read : Step v providers os c (.read (c.store.snapshot v)) (c.moved (c.store.seen v))
  | keep {set : SourceSet} (h : set ∈ c.past) :
    Step v providers os c (.kept (v.build set).run) (c.moved (c.store.keep (v.build set).run))

/-- From one store on, any number of steps, one behind the other. -/
inductive Run (v : View Id) (providers : List Provider) (s : Store) :
    List Occurrence → Course → Prop
  | nil : Run v providers s [] (.start s)
  | snoc {os : List Occurrence} {o : Occurrence} {c d : Course} (run : Run v providers s os c)
    (step : Step v providers os c o d) : Run v providers s (os ++ [o]) d

end Course

end LayeredConfig
