import LayeredConfig.Filter.Kinds
import LayeredConfig.Store

/-! # Contexts

A context is put together from sources, providers, filters and resolvers by a builder. What is
decided then stays (`Setup`); what changes later is the context's store. One kind of resolver is
not a function of the expression: a hook stands for a place where the world may act on the context
while it is read. -/

namespace LayeredConfig

/-- A resolver as it is registered. -/
inductive Registration
  | function (r : Resolver Id)
  /-- The resolver that reads files as they are at the time of the call. -/
  | files
  /-- A resolver that answers the empty text when asked by name, after the world has acted. -/
  | hook (id : String)

namespace Registration

/-- The resolvers that come with the library. -/
def builtin (vars : Properties) : List Registration :=
  [.function .conf, .function (.env vars), .files]

/-- The resolver of a registration in a world; `act` is what the world does at a hook. -/
def resolver {m : Type → Type} [Monad m] (files : FileTree) (act : m (Result Unit)) :
    Registration → Resolver m
  | function r => r.lift
  | .files => (Resolver.file files).lift
  | hook id => {
      id := id
      isInChain := false
      evaluate := fun _ _ => do return (← act).map fun _ => some "" }

end Registration

/-- What is decided about a context when it is built. -/
structure Setup where
  providers : List Provider
  timeout : Duration
  pipeline : Pipeline
  resolvers : List Registration
  mask : Bool

namespace Setup

/-- How the context is read in a world; `act` is what the world does at a hook. -/
def view {m : Type → Type} [Monad m] (s : Setup) (files : FileTree) (act : m (Result Unit)) :
    View m where
  pipeline := s.pipeline
  evaluator := .ofResolvers (s.resolvers.map (·.resolver files act))
  mask := s.mask

/-- How the context is read where nothing acts at a hook. -/
def quiet (s : Setup) (files : FileTree) : View Id := s.view files (pure (.ok ()))

/-- Loads the providers. -/
def load (s : Setup) (number : Nat) (files : FileTree) : Loaded :=
  Provider.loadAll s.providers s.timeout number files

end Setup

/-- The parts that a context is put together from. -/
structure Builder where
  sources : List Source := []
  writable : Option Writable := none
  providers : List Provider := []
  timeout : Duration := defaultTimeout
  filters : List Filter := []
  /-- Whether snapshots leave out reserved keys. -/
  hidesReserved : Bool := true
  resolvers : List Registration := []
  mask : Bool := true

namespace Builder

def withSource (b : Builder) (s : Source) : Builder := { b with sources := b.sources ++ [s] }

/-- Registers a source that commits write to. It is looked up like any other. -/
def withWritable (b : Builder) (w : Writable) : Builder :=
  { b.withSource w.toSource with writable := some w }

def withProvider (b : Builder) (p : Provider) : Builder :=
  { b with providers := b.providers ++ [p] }

def withTimeout (b : Builder) (limit : Duration) : Builder := { b with timeout := limit }

def withFilter (b : Builder) (f : Filter) : Builder := { b with filters := b.filters ++ [f] }

def withReservedKeys (b : Builder) : Builder := { b with hidesReserved := false }

/-- Registers a resolver, in place of an earlier one with its id. -/
def withResolver (b : Builder) (r : Registration) : Builder :=
  { b with resolvers := b.resolvers ++ [r] }

/-- Registers the resolvers that come with the library ahead of all others, so that one with the
same id wins over them. -/
def withBuiltinResolvers (b : Builder) (vars : Properties) : Builder :=
  { b with resolvers := Registration.builtin vars ++ b.resolvers }

def withMask (b : Builder) (mask : Bool) : Builder := { b with mask }

/-- The decisions of a builder. -/
def setup (b : Builder) : Setup where
  providers := b.providers
  timeout := b.timeout
  pipeline := .ofFilters (b.filters ++ if b.hidesReserved then [Filter.hideReserved] else [])
  resolvers := b.resolvers
  mask := b.mask

/-- Loads the providers for the first time and publishes what there is. It fails when all providers
have and there is nothing else. -/
def build (b : Builder) (files : FileTree) : Result (Setup × Store) :=
  let setup := b.setup
  let loaded := setup.load 0 files
  if Provider.allFailed b.providers loaded && b.sources.isEmpty then
    .error (.noSources b.providers.length)
  else .ok (setup, .initial b.sources b.writable loaded)

end Builder

end LayeredConfig
