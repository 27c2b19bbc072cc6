import LayeredConfig.FileTree
import LayeredConfig.Property
import LayeredConfig.Text.Characters
import LayeredConfig.Error

/-! # Resolvers

A resolver answers the expressions of placeholders. It is asked by name, when an expression begins
with its id and a colon, and, if it is in the default chain, for any expression that names none. A
resolver may act on the world it runs in; one of `Resolver Id` is a function of expression and
scope alone, and `lift` makes it a resolver of any world. -/

namespace LayeredConfig

/-- The configuration a resolver runs against: the text behind a key, if there is a
configuration. -/
structure Scope where
  lookup? : Option (String → Option String)

namespace Scope

/-- A scope without a configuration. -/
def empty : Scope := ⟨none⟩

/-- A scope that answers for keys. -/
def of (lookup : String → Option String) : Scope := ⟨some lookup⟩

/-- The text behind a key. -/
def value? (s : Scope) (key : String) : Option String := s.lookup?.bind fun lookup => lookup key

end Scope

/-- A named evaluator of expressions. `.ok none` says that there is no answer. -/
structure Resolver (m : Type → Type) where
  id : String
  priority : Int := 0
  isInChain : Bool := true
  evaluate : String → Scope → m (Result (Option String))

namespace Resolver

/-- A resolver that is a function, among resolvers of a world. -/
def lift {m : Type → Type} [Monad m] (r : Resolver Id) : Resolver m :=
  { r with evaluate := fun expression scope => pure (r.evaluate expression scope) }

/-! ### Kinds of resolvers -/

def confPriority : Int := 300

def envPriority : Int := 200

def filePriority : Int := 100

/-- Answers with the value of another key. -/
def conf : Resolver Id where
  id := "conf"
  priority := confPriority
  evaluate expression scope := .ok (scope.value? (Text.trimmed expression))

/-- Answers with the value of a variable. -/
def env (vars : Properties) : Resolver Id where
  id := "env"
  priority := envPriority
  evaluate expression _ := .ok (vars.get? (Text.trimmed expression))

/-- Answers, when asked by name, with what a file holds, without the blanks at its ends. A file
that is not there is no answer. -/
def file (tree : FileTree) : Resolver Id where
  id := "file"
  priority := filePriority
  isInChain := false
  evaluate expression _ :=
    let path := Text.trimmed expression
    match tree.readText path with
    | .ok text => .ok (some (Text.trimmed text))
    | .error (.path .missing) => .ok none
    | .error fault => .error (.unreadable path fault.message)

/-- Answers from a table of expressions. -/
def table (id : String) (priority : Int) (answers : Properties) : Resolver Id where
  id := id
  priority := priority
  evaluate expression _ := .ok (answers.get? expression)

/-- Answers by a function of the expression. -/
def function (id : String) (priority : Int) (isInChain : Bool)
    (answer : String → Result (Option String)) : Resolver Id where
  id := id
  priority := priority
  isInChain := isInChain
  evaluate expression _ := answer expression

end Resolver

end LayeredConfig
