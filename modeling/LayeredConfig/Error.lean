import LayeredConfig.Duration
import LayeredConfig.Path

/-! # Errors

Everything that can go wrong, by cause. Most of it the library gets over by itself: a failing
source is passed over, a failing filter lets the value through, a placeholder without an answer is
masked. Only errors of the category `configuration` are for the caller. -/

namespace LayeredConfig

/-- What is wrong with a text that does not follow its format. -/
inductive Malformation
  | notPattern
  | notDocument
  | said (complaint : String)
  deriving DecidableEq

/-- The text of a malformation. -/
def Malformation.text : Malformation → String
  | notPattern => "not a pattern"
  | notDocument => "not a document"
  | said complaint => complaint

/-- A cause of failure. -/
inductive ConfigError
  /-- A source or provider gave nothing. -/
  | sourceFailed (source message : String)
  /-- A provider did not answer in time. -/
  | providerTimedOut (provider : String) (limit : Duration)
  /-- A filter failed on a key. -/
  | filterFailed (filter key message : String)
  /-- A placeholder found no answer. -/
  | unresolved (expression message : String)
  /-- A placeholder leads back to itself. -/
  | cyclic (expression : String) (chain : List String)
  /-- A key that must be there is not. -/
  | missingKey (key : String) (cause : Option ConfigError)
  /-- A value is not of the type asked for. -/
  | notConvertible (key value target message : String)
  /-- No provider gave a source, and there is none besides. -/
  | noSources (attempted : Nat)
  /-- There is nothing to write to. -/
  | notWritable (message : String)
  /-- A file or directory could not be read. -/
  | unreadable (path message : String)
  /-- A text does not follow its format. -/
  | malformed (origin : String) (malformation : Malformation)
  /-- A watch cannot be set up. -/
  | unwatchable (message : String)

/-- What an error is about, which decides who deals with it. -/
inductive ErrorCategory
  | sourceLoad
  | filter
  | resolution
  | cycle
  | configuration
  | watch
  deriving DecidableEq

namespace ConfigError

/-- The text of an error. -/
def message : ConfigError → String
  | sourceFailed source m => s!"Failed to load property source '{source}': {m}"
  | providerTimedOut provider limit =>
    s!"Property source provider '{provider}' timed out after {limit.text}"
  | filterFailed filter key m => s!"Filter '{filter}' failed on key '{key}': {m}"
  | unresolved expression m => s!"Failed to resolve expression '{expression}': {m}"
  | cyclic expression chain =>
    let links := String.intercalate " -> " chain
    s!"Cyclic reference while resolving '{expression}' (chain: {links})"
  | missingKey key _ => s!"Required configuration key '{key}' is not available"
  | notConvertible key value target m => s!"Cannot convert '{key}' = '{value}' to {target}: {m}"
  | noSources attempted => s!"No property source could be loaded ({attempted} attempted)"
  | notWritable m => s!"Configuration is not writable: {m}"
  | unreadable path m => s!"I/O error on {path}: {m}"
  | malformed origin m =>
    let complaint := m.text
    s!"Failed to parse {origin}: {complaint}"
  | unwatchable m => s!"Configuration watch error: {m}"

/-- The key an error is about, if it is about one. -/
def key? : ConfigError → Option String
  | filterFailed _ key _ | missingKey key _ | notConvertible key _ _ _ => some key
  | _ => none

def category : ConfigError → ErrorCategory
  | sourceFailed .. | providerTimedOut .. | unreadable .. | malformed .. => .sourceLoad
  | filterFailed .. => .filter
  | unresolved .. => .resolution
  | cyclic .. => .cycle
  | missingKey .. | notConvertible .. | noSources .. | notWritable .. => .configuration
  | unwatchable .. => .watch

/-- Whether the library gets over an error by itself. -/
def isRecoverable (e : ConfigError) : Bool := e.category ≠ .configuration

/-- The texts of the errors behind an error, the nearest first. -/
def causes : ConfigError → List String
  | missingKey _ (some cause) => cause.message :: cause.causes
  | _ => []

/-- Whether two errors say the same. Paths are compared by their components. -/
def same : ConfigError → ConfigError → Bool
  | sourceFailed s m, sourceFailed s' m' => s = s' && m = m'
  | providerTimedOut p l, providerTimedOut p' l' => p = p' && l = l'
  | filterFailed f k m, filterFailed f' k' m' => f = f' && k = k' && m = m'
  | unresolved x m, unresolved x' m' => x = x' && m = m'
  | cyclic x c, cyclic x' c' => x = x' && c = c'
  | missingKey k none, missingKey k' none => k = k'
  | missingKey k (some c), missingKey k' (some c') => k = k' && c.same c'
  | notConvertible k v t m, notConvertible k' v' t' m' => k = k' && v = v' && t = t' && m = m'
  | noSources n, noSources n' => n = n'
  | notWritable m, notWritable m' => m = m'
  | unreadable p m, unreadable p' m' => Path.same p p' && m = m'
  | malformed o m, malformed o' m' => o = o' && m = m'
  | unwatchable m, unwatchable m' => m = m'
  | _, _ => false

end ConfigError

/-- A value, or why there is none. -/
abbrev Result (α : Type u) := Except ConfigError α

namespace Result

variable {α β : Type}

/-- The value, an error being passed over. -/
def skip : Result α → Option α
  | .ok a => some a
  | .error _ => none

/-- The value, and what `f` makes of the error when there is none. -/
def handle (f : ConfigError → β) : Result α → Option α × Option β
  | .ok a => (some a, none)
  | .error e => (none, some (f e))

end Result

end LayeredConfig
