import LayeredConfig.Live

/-! # Sessions

A session is a run of a program with several contexts: they share the files, one log and the place
of the current context, and the program holds on to snapshots, to transactions and, by their names,
to sources that it has given to contexts. A transaction collects writes for a context and is spent
by its commit. -/

namespace LayeredConfig

/-- Writes that are collected for a context. -/
structure Transaction where
  /-- The number of the context. -/
  context : Nat
  changes : List Change := []

namespace Transaction

def isEmpty (t : Transaction) : Bool := t.changes.isEmpty

def queue (t : Transaction) (changes : List Change) : Transaction :=
  { t with changes := t.changes ++ changes }

end Transaction

/-- A source that the program keeps in hand. -/
structure Handle where
  /-- The number of the context to which the source was given. -/
  context : Nat
  source : Writable

/-- A run of a program. -/
structure Session where
  files : FileTree
  /-- The contexts by number; one that could not be built is `none`. -/
  contexts : List (Option Live) := []
  /-- The sources that the program keeps in hand, by name. Of two with one name the later stays,
  whichever contexts they were given to. -/
  shared : KeyMap Handle := ∅
  log : List LogEntry := []
  held : KeyMap Snapshot := ∅
  transactions : KeyMap Transaction := ∅
  /-- The number of the current context, if one is installed. -/
  current : Option Nat := none

namespace Session

/-- Adds a context, or the mark that it could not be built, with sources given to it that the
program keeps in hand. -/
def withContext (s : Session) (built : Option (Setup × Store)) (given : KeyMap Writable) :
    Session :=
  { s with
    contexts := s.contexts ++ [built.map fun b => { setup := b.1, store := b.2, files := s.files }]
    shared := given.entries.foldl
      (fun shared (name, w) => shared.insert name ⟨s.contexts.length, w⟩) s.shared }

/-- The context with a number. -/
def context? (s : Session) (number : Nat) : Option Live := s.contexts[number]?.join

/-- Lets a context act, with the files of the session and its log. -/
def act? {α : Type} (s : Session) (number : Nat) (action : StateM Live α) : Option (α × Session) :=
  (s.context? number).map fun live =>
    let (answer, live) := action.run { live with files := s.files, log := s.log }
    (answer, { s with
      contexts := s.contexts.set number (some { live with log := [] })
      log := live.log })

/-! ### The log -/

/-- The log so far, and the session with an empty one. -/
def takeLog (s : Session) : List LogEntry × Session := (s.log, { s with log := [] })

/-! ### Snapshots -/

/-- Holds on to a snapshot. -/
def hold (s : Session) (name : String) (snapshot : Snapshot) : Session :=
  { s with held := s.held.insert name snapshot }

/-! ### Transactions -/

/-- Begins a transaction, if the context can be written to. -/
def begin (s : Session) (name : String) (number : Nat) : Result Session :=
  if (s.context? number).any (·.store.writable.isSome) then
    .ok { s with transactions := s.transactions.insert name { context := number } }
  else .error Store.noWritable

/-- Adds writes to a transaction. -/
def queue (s : Session) (name : String) (changes : List Change) : Session :=
  match s.transactions.get? name with
  | none => s
  | some t => { s with transactions := s.transactions.insert name (t.queue changes) }

/-- Commits a transaction, which is spent by it. -/
def commit? (s : Session) (name : String) : Option (Result ChangeEvent × Session) := do
  let t ← s.transactions.get? name
  let s := { s with transactions := s.transactions.erase name }
  s.act? t.context (Live.commit t.changes)

/-- Begins a transaction, adds writes to it and commits it. -/
def write? (s : Session) (number : Nat) (changes : List Change) :
    Option (Result ChangeEvent × Session) :=
  s.act? number (Live.commit changes)

/-! ### Shared sources -/

/-- Edits a source that the program keeps in hand, on behalf of a context that has to be there. The
context to which the source was given holds it as it is after the edit, which is the answer. -/
def edit? (s : Session) (number : Nat) (name : String) (changes : List Change) :
    Option (Table × Session) := do
  let _ ← s.context? number
  let handle ← s.shared.get? name
  let w := { handle.source with table := handle.source.table.withChanges changes }
  let s := { s with shared := s.shared.insert name { handle with source := w } }
  match s.act? handle.context (Live.edit w) with
  | some (_, s) => return (w.table, s)
  | none => return (w.table, s)

/-! ### Files -/

def writeFile (s : Session) (path : String) (content : Content) : Session :=
  { s with files := s.files.put path (.file content) }

/-- Removes a file, and tells whether there was one. -/
def removeFile (s : Session) (path : String) : Bool × Session :=
  let (found, files) := s.files.remove path
  (found, { s with files })

/-- Watches paths for a context while files change, and looks at them once. The answer is the
number of versions that were published. -/
def watch? (s : Session) (number : Nat) (paths : List String) (interval : Duration)
    (change : Session → Session) : Option (Result (Watch × Nat) × Session) := do
  let before ← s.context? number
  match Watch.start paths interval s.files with
  | .error error => return (.error error, s)
  | .ok w =>
    let (w, s) ← (change s).act? number (Live.pollOnce w)
    let after ← s.context? number
    return (.ok (w, after.store.version - before.store.version), s)

/-! ### The current context -/

/-- Makes a context the current one, unless there is one. -/
def install (s : Session) (number : Nat) : Bool × Session :=
  if s.current.isSome then (false, s) else (true, { s with current := some number })

/-- Makes a context the current one. -/
def replace (s : Session) (number : Nat) : Option Nat × Session :=
  (s.current, { s with current := some number })

/-- Leaves no context the current one. -/
def clear (s : Session) : Option Nat × Session := (s.current, { s with current := none })

/-- The text of a key in a context, if there is one. -/
def readIn (s : Session) (number : Option Nat) (key : String) : Option String × Session :=
  match number.bind fun n => s.act? n (Live.read key) with
  | some (value, s) => (value, s)
  | none => (none, s)

end Session

end LayeredConfig
