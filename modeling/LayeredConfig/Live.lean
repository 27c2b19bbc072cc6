import LayeredConfig.Context
import LayeredConfig.Watch

/-! # Contexts at work

A context at work has a store, listeners that hear of its changes, a hook that may be armed with
writes, and the files it reads. Reading it may therefore change it: a hook that is met while a
placeholder is resolved commits the writes it is armed with. A change is told to the listeners, and
a listener may read, leave, and commit a write of its own the first time it is called.

Commits made on the way to another commit use up a hook or a listener's write, so there are no more
of them than `pending` counts, and reloads within reloads have ever greater numbers; these bounds
are the fuel of the two recursions. -/

namespace LayeredConfig

/-- One who hears of changes. -/
structure Listener where
  number : Nat
  label : String
  /-- The keys to read on every change. -/
  reads : List String
  /-- Whether the listener leaves once it has been called. -/
  leaves : Bool

/-- What is told about the course of events. -/
inductive LogEntry
  | heard (listener : String) (event : ChangeEvent) (read : List (String × Option String))
  | hookCommitted (event : ChangeEvent)
  | nestedReload (outcome : Result ChangeEvent)

/-- A context at work. -/
structure Live where
  setup : Setup
  store : Store
  files : FileTree
  listeners : List Listener := []
  /-- The number of the next listener. -/
  nextListener : Nat := 0
  /-- The writes that listeners make the first time they are called, by the number of the listener.
  -/
  answers : List (Nat × Change) := []
  /-- The writes that the next hook commits. -/
  armed : Option (List Change) := none
  log : List LogEntry := []

namespace Live

/-- A commit of writes. -/
abbrev Write := List Change → StateM Live (Result ChangeEvent)

/-- How the context is read inside of a change. -/
def quiet (l : Live) : View Id := l.setup.quiet l.files

/-- The number of commits that are still to come from a hook or from listeners. -/
def pending (l : Live) : Nat := l.answers.length + if l.armed.isSome then 1 else 0

def record (entry : LogEntry) : StateM Live Unit :=
  modify fun l => { l with log := l.log ++ [entry] }

/-- Makes a step of the store. -/
def onStore {α : Type} (step : Store → α × Store) : StateM Live α :=
  modifyGet fun l => ((step l.store).1, { l with store := (step l.store).2 })

theorem onStore_run {α : Type} (step : Store → α × Store) (l : Live) :
    (onStore step).run l = pure ((step l.store).1, { l with store := (step l.store).2 }) := rfl

/-! ### Reading -/

/-- What happens at a hook: it is disarmed, and its writes are committed. -/
def atHook (write : Write) : StateM Live (Result Unit) := do
  match (← get).armed with
  | none => return .ok ()
  | some changes =>
    modify fun l => { l with armed := none }
    match ← write changes with
    | .ok event =>
      record (.hookCommitted event)
      return .ok ()
    | .error error => return .error error

/-- How the context is read from outside. -/
def view (write : Write) (l : Live) : View (StateM Live) := l.setup.view l.files (atHook write)

/-- The value of a key in the published version. -/
def getValueBy (write : Write) (key : String) : StateM Live (Option PropertyValue) := do
  let l ← get
  (l.view write).getValue l.store.published key

/-- The text of a key in the published version. -/
def getBy (write : Write) (key : String) : StateM Live (Option String) := do
  let l ← get
  (l.view write).get l.store.published key

/-- The snapshot of the published version. -/
def snapshotBy (write : Write) : StateM Live Snapshot := do
  let l ← get
  Store.readSnapshot (l.view write) (return (← get).store.published)
    (return (← get).store.cached) fun built =>
      modify fun l => { l with store := l.store.keep built }

/-! ### Telling of changes -/

/-- Takes a listener off the list. -/
def dismiss (number : Nat) : StateM Live Unit :=
  modify fun l => { l with listeners := l.listeners.filter fun x => x.number ≠ number }

/-- Commits the write of a listener, if it has not been called before. -/
def answer (write : Write) (number : Nat) : StateM Live Unit := do
  match (← get).answers.lookup number with
  | none => return
  | some change =>
    modify fun l => { l with answers := l.answers.filter fun a => a.1 ≠ number }
    discard (write [change])

/-- Calls a listener. -/
def call (write : Write) (event : ChangeEvent) (listener : Listener) : StateM Live Unit := do
  let read ← listener.reads.mapM fun key => do return (key, ← getBy write key)
  record (.heard listener.label event read)
  if listener.leaves then dismiss listener.number
  answer write listener.number

/-- Tells the listeners of an event, if anything has changed. -/
def announce (write : Write) (event : ChangeEvent) : StateM Live Unit := do
  if event.isEmpty then return
  (← get).listeners.forM (call write event)

/-! ### Changes -/

/-- Commits writes, of which at most `fuel` more may be made on the way. -/
def commitWithin : Nat → Write
  | 0, changes => do
    let view := (← get).quiet
    onStore (Store.commit view changes)
  | fuel + 1, changes => do
    let view := (← get).quiet
    match ← onStore (Store.commit view changes) with
    | .ok event =>
      announce (commitWithin fuel) event
      return .ok event
    | .error error => return .error error

/-- Commits writes and tells the listeners. -/
def commit (changes : List Change) : StateM Live (Result ChangeEvent) := do
  commitWithin ((← get).pending + 1) changes

/-- Finishes the reload with a number. -/
def finishReload (number : Nat) (loaded : Loaded) : StateM Live (Result ChangeEvent) := do
  let l ← get
  match ← onStore (Store.finishReload l.quiet l.setup.providers number loaded) with
  | .ok event =>
    announce commit event
    return .ok event
  | .error error => return .error error

/-- Reloads the providers; loads may ask for reloads of their own, nested at most `fuel` deep. -/
def reloadWithin (fuel : Nat) : StateM Live (Result ChangeEvent) := do
  let number ← onStore Store.startReload
  match fuel with
  | 0 => pure ()
  | fuel + 1 =>
    (← get).setup.providers.forM fun p => do
      if number ∈ p.nested then record (.nestedReload (← reloadWithin fuel))
  let l ← get
  finishReload number (l.setup.load number l.files)

/-- Reloads the providers and tells the listeners. -/
def reload : StateM Live (Result ChangeEvent) := do
  reloadWithin ((← get).setup.providers.flatMap (·.nested)).length

/-- Publishes the same sources under a new version, which is the answer. -/
def refresh : StateM Live Nat := onStore fun s => (s.refresh.version, s.refresh)

/-! ### Calls from outside -/

/-- The value of a key. A hook on the way commits. -/
def getValue (key : String) : StateM Live (Option PropertyValue) := getValueBy commit key

/-- The text of a key. A hook on the way commits. -/
def read (key : String) : StateM Live (Option String) := getBy commit key

/-- The snapshot. A hook on the way commits. -/
def snapshot : StateM Live Snapshot := snapshotBy commit

/-- Registers a listener, with the write it makes the first time it is called. -/
def listen (label : String) (reads : List String) (leaves : Bool) (answer : Option Change) :
    StateM Live Unit :=
  modify fun l => { l with
    listeners := l.listeners ++ [⟨l.nextListener, label, reads, leaves⟩]
    nextListener := l.nextListener + 1
    answers := l.answers ++ (answer.map (l.nextListener, ·)).toList }

/-- Takes the last listener of a label off the list, and tells whether there was one. -/
def dismissLabel (label : String) : StateM Live Bool := do
  match (← get).listeners.reverse.find? fun x => x.label = label with
  | none => return false
  | some listener =>
    dismiss listener.number
    return true

/-- Arms the hook. -/
def arm (changes : List Change) : StateM Live Unit :=
  modify fun l => { l with armed := some changes }

/-- Edits a source that the context holds from outside. -/
def edit (w : Writable) : StateM Live Unit := modify fun l => { l with store := l.store.edited w }

/-- Looks at the files of a watch once, and reloads if they have changed. -/
def pollOnce (w : Watch) : StateM Live Watch := do
  let (changed, w) := w.poll (← get).files
  if changed then discard reload
  return w

end Live

end LayeredConfig
