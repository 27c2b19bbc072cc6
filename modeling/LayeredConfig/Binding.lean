import LayeredConfig.Conversion
import LayeredConfig.Property

/-! # Binding

A program reads its settings key by key, as they are or as typed values, or all at once by a table
of fields. The reading may act on the world (`KeyReader m`), and fields are read in the order in
which they are declared. -/

namespace LayeredConfig

/-- A way to read the text of a key. -/
abbrev KeyReader (m : Type → Type) := String → m (Option String)

namespace KeyReader

variable {m : Type → Type} [Monad m] (get : KeyReader m)

/-- The text of a key, or a text in its place. -/
def getOr (key default : String) : m String := return (← get key).getD default

/-- The text of a key that must be there. -/
def getRequired (key : String) : m (Result String) := do
  match ← get key with
  | some value => return .ok value
  | none => return .error (.missingKey key none)

/-- The value of a key as a target, if the key is there. -/
def getAs (key : String) (target : Target) : m (Result (Option Typed)) := do
  match ← get key with
  | some raw => return (convert key raw target).map some
  | none => return .ok none

end KeyReader

/-- A field of a binding. -/
inductive Field
  | required (key : String)
  | withDefault (key default : String)
  | optional (key : String)
  deriving DecidableEq

namespace Field

def key : Field → String
  | required k | withDefault k _ | optional k => k

def isRequired : Field → Bool
  | required _ => true
  | _ => false

/-- What stands for a field whose key is not there. -/
def default? : Field → Option String
  | withDefault _ d => some d
  | _ => none

end Field

/-- The values of fields. -/
structure Bound where
  values : Properties
  deriving DecidableEq

namespace Bound

/-- Reads fields and adds their values. The first required field without a value ends the
reading. -/
def readAfter {m : Type → Type} [Monad m] (get : KeyReader m) (values : Properties) :
    List Field → m (Result Bound)
  | [] => return .ok ⟨values⟩
  | field :: fields => do
    match (← get field.key).or field.default? with
    | some value => readAfter get (values.insert field.key value) fields
    | none =>
      if field.isRequired then return .error (.missingKey field.key none)
      else readAfter get values fields

/-- Reads a table of fields. -/
def read {m : Type → Type} [Monad m] (get : KeyReader m) (fields : List Field) : m (Result Bound) :=
  readAfter get ∅ fields

def get? (b : Bound) (key : String) : Option String := b.values.get? key

/-- The value of a field as a target, if it has one. -/
def getAs (b : Bound) (key : String) (target : Target) : Result (Option Typed) :=
  match b.get? key with
  | some raw => (convert key raw target).map some
  | none => .ok none

/-- The value of a field that must have one. -/
def require (b : Bound) (key : String) (target : Target) : Result Typed :=
  match b.get? key with
  | some raw => convert key raw target
  | none => .error (.missingKey key none)

def size (b : Bound) : Nat := b.values.size

def isEmpty (b : Bound) : Bool := b.values.isEmpty

end Bound

/-! ### A record of settings -/

/-- The settings of a server. -/
structure ServerSettings where
  host : String
  portNumber : Int
  workers : Option Int
  tls : Bool
  deriving DecidableEq

namespace ServerSettings

/-- The integer of a typed value. -/
def integer? : Typed → Option Int
  | .integer n => some n
  | _ => none

/-- Reads the settings under `server`: host and port must be there, and encryption is off by
default. -/
def read {m : Type → Type} [Monad m] (get : KeyReader m) : m (Result ServerSettings) :=
  ExceptT.run do
    let host ← ExceptT.mk (get.getRequired "server.host")
    let value ← ExceptT.mk (get.getAs "server.port" (.integer ⟨false, 16⟩))
    let some portNumber := value.bind integer? | throw (.missingKey "server.port" none)
    let workers ← ExceptT.mk (get.getAs "server.workers" (.integer ⟨false, 64⟩))
    let tls ← ExceptT.mk (get.getAs "server.tls" .boolean)
    return ⟨host, portNumber, workers.bind integer?, tls = some (.boolean true)⟩

end ServerSettings

end LayeredConfig
