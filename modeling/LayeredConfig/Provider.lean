import LayeredConfig.FileTree
import LayeredConfig.Source

/-! # Providers

A provider gives sources when it is loaded, anew on every load, and may give others each time. It
may also fail, not answer within the time that it is given, or end without an answer, and then it
counts as failed and the others go on without it. A load may ask for a reload of its own before it
answers, which is how loads come to overlap. -/

namespace LayeredConfig

/-- What one load comes to. -/
inductive LoadOutcome
  | loaded (sources : List Source)
  | failed (error : ConfigError)
  /-- There is no answer in time. -/
  | silent
  /-- The load ends without an answer. -/
  | ended

/-- A giver of sources. -/
structure Provider where
  name : String
  /-- The outcome of the load with a number, the first being zero, with the files as they are then.
  -/
  load : Nat → FileTree → LoadOutcome
  /-- The numbers of the loads that ask for a reload before they answer. -/
  nested : List Nat := []

/-- The time that providers are given. -/
def defaultTimeout : Duration := .ofMilliseconds 5000

/-- The sources of a load, or why there are none. -/
def LoadOutcome.result (provider : String) (limit : Duration) : LoadOutcome → Result (List Source)
  | loaded sources => .ok sources
  | failed error => .error error
  | silent => .error (.providerTimedOut provider limit)
  | ended => .error (.sourceFailed provider "provider worker exited without a result")

/-- What the loads of several providers come to. -/
structure Loaded where
  sources : List Source
  failed : Nat

namespace Provider

/-- The sources that a provider loads, or why there are none. -/
def loadOne (p : Provider) (limit : Duration) (number : Nat) (files : FileTree) :
    Result (List Source) :=
  (p.load number files).result p.name limit

/-- Loads providers; their sources come in the order of the providers. -/
def loadAll (providers : List Provider) (limit : Duration) (number : Nat) (files : FileTree) :
    Loaded :=
  let results := providers.map fun p => (p.loadOne limit number files).skip
  ⟨(results.filterMap id).flatten, results.countP Option.isNone⟩

/-- Whether nothing came of loading providers, so that there is nothing to read from unless there
are sources besides. -/
def allFailed (providers : List Provider) (loaded : Loaded) : Bool :=
  !providers.isEmpty && loaded.failed = providers.length

/-- A provider of fixed sources. -/
def fixed (name : String) (sources : List Source) : Provider where
  name := name
  load _ _ := .loaded sources

/-- A provider whose loads are given one by one, the last one standing for all that follow. Without
any it gives no sources. -/
def inSteps (name : String) (loads : List LoadOutcome) (nested : List Nat) : Provider where
  name := name
  load number _ := (loads[number]?.or loads.getLast?).getD (.loaded [])
  nested := nested

end Provider

end LayeredConfig
