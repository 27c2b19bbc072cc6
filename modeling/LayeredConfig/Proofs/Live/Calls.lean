import LayeredConfig.Binding
import LayeredConfig.Live
import LayeredConfig.Proofs.Store.Story

/-! # Calls from outside

What a program may ask of a context at work, one call behind the other, and what it is told. A
reload is one call, or it is started by one and finished by another, so that reloads overlap in any
order and other calls fall in between. A source that the program shares with the context may be
edited in place, of which the context is told nothing. -/

namespace LayeredConfig

/-- What may be asked of a context at work. -/
inductive Call
  | commit (changes : List Change)
  | reload
  /-- A reload takes its number and begins to load. -/
  | startReload
  /-- The reload with a number comes to its end with what it has loaded. -/
  | finishReload (number : Nat) (loaded : Loaded)
  | refresh
  | getValue (key : String)
  | get (key : String)
  | properties
  | sources
  | bind (fields : List Field)
  | listen (label : String) (reads : List String) (leaves : Bool) (answer : Option Change)
  | leave (label : String)
  | arm (changes : List Change)
  /-- A source that the context holds is edited from outside. -/
  | edit (w : Writable)

/-- What is told on a call. -/
inductive Answer
  | committed (outcome : Result ChangeEvent)
  | reloaded (outcome : Result ChangeEvent)
  | number (n : Nat)
  | value (value : Option PropertyValue)
  | text (text : Option String)
  | snapshot (snapshot : Snapshot)
  | sources (summary : List (String × Int))
  | bound (outcome : Result Bound)
  | left (wasThere : Bool)
  | done

/-- The event that a caller is told of, if it is one of a commit or of a published reload. -/
def Answer.event? : Answer → Option ChangeEvent
  | committed outcome => outcome.toOption
  | reloaded outcome => publishedEvent? outcome
  | _ => none

namespace Live

/-- Answers a call. -/
def perform : Call → StateM Live Answer
  | .commit changes => return .committed (← commit changes)
  | .reload => return .reloaded (← reload)
  | .startReload => return .number (← onStore Store.startReload)
  | .finishReload number loaded => return .reloaded (← finishReload number loaded)
  | .refresh => return .number (← refresh)
  | .getValue key => return .value (← getValue key)
  | .get key => return .text (← read key)
  | .properties => return .snapshot (← snapshot)
  | .sources => return .sources (← get).store.published.summary
  | .bind fields => return .bound (← Bound.read read fields)
  | .listen label reads leaves answer => do
    listen label reads leaves answer
    return .done
  | .leave label => return .left (← dismissLabel label)
  | .arm changes => do
    arm changes
    return .done
  | .edit w => do
    edit w
    return .done

/-- Answers calls, one behind the other. -/
def performAll (calls : List Call) : StateM Live (List Answer) := calls.mapM perform

end Live

/-- What a program is told that builds a context and makes calls of it: the answers, and what
listeners and loads have heard on the way. -/
def Builder.told (b : Builder) (files : FileTree) (calls : List Call) :
    Result (List Answer × List LogEntry) :=
  (b.build files).map fun built =>
    let (answers, l) := (Live.performAll calls).run { setup := built.1, store := built.2, files }
    (answers, l.log)

end LayeredConfig
