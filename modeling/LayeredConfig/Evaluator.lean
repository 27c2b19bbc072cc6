import LayeredConfig.KeyMap
import LayeredConfig.Order.Sort
import LayeredConfig.Placeholder
import LayeredConfig.Resolver

/-! # Evaluation of placeholders

Rendering a value puts answers in place of its placeholders: first inside a placeholder's body,
then the placeholder itself, and at last inside the answer. An evaluation under way is known by its
identity, the resolver's id and the expression, and is not entered again. Two bounds keep the work
finite whatever resolvers answer: placeholders are nested at most `maxDepth` levels, bodies and
answers both counting, and one value takes at most `maxSteps` evaluations. -/

namespace LayeredConfig

/-- The levels to which placeholders may be nested. -/
def maxDepth : Nat := 32

/-- The evaluations that one value may take. -/
def maxSteps : Nat := 1024

/-- A text after rendering, and whether every placeholder in it was answered. -/
structure Rendered where
  text : List Char
  isComplete : Bool
  deriving DecidableEq

namespace Rendered

/-- One rendered text behind another. -/
def append (a b : Rendered) : Rendered := ⟨a.text ++ b.text, a.isComplete && b.isComplete⟩

/-- A text that has nothing to render. -/
def verbatim (text : List Char) : Rendered := ⟨text, true⟩

end Rendered

/-- The state of rendering a value. -/
structure Flight where
  /-- The identities of the evaluations under way, the innermost first. -/
  stack : List String
  /-- The evaluations made. -/
  steps : Nat
  /-- Whether an evaluation was refused because there had been too many. -/
  isExhausted : Bool
  deriving DecidableEq

/-- The start of rendering, with evaluations already under way. -/
def Flight.start (stack : List String) : Flight := ⟨stack, 0, false⟩

/-- What came of asking a resolver. -/
inductive Attempt
  | found (answer : Rendered)
  /-- The resolver has no answer, or failed. -/
  | miss
  /-- The same evaluation is under way. -/
  | cycle
  /-- There were too many evaluations. -/
  | exhausted

/-- Resolvers by id, and those of the default chain in the order in which they are asked. -/
structure Evaluator (m : Type → Type) where
  byId : KeyMap (Resolver m)
  chain : List (Resolver m)

namespace Evaluator

variable {m : Type → Type}

/-- Whether one resolver is asked before another, or could as well. -/
def notAfter (a b : Resolver m) : Bool :=
  b.priority < a.priority || (a.priority = b.priority && a.id ≤ b.id)

theorem notAfter_preorder : Order.Preorder (notAfter (m := m)) where
  trans a b c := by
    simp only [notAfter, Bool.or_eq_true, Bool.and_eq_true, decide_eq_true_eq]
    rintro (h | ⟨h, hn⟩) (h' | ⟨h', hn'⟩)
    · exact .inl (by omega)
    · exact .inl (by omega)
    · exact .inl (by omega)
    · exact .inr ⟨by omega, String.le_trans hn hn'⟩
  total a b := by
    simp only [notAfter, Bool.or_eq_true, Bool.and_eq_true, decide_eq_true_eq]
    rcases Int.lt_trichotomy a.priority b.priority with h | h | h
    · exact .inr (.inl h)
    · exact (String.le_total a.id b.id).imp (fun hn => .inr ⟨h, hn⟩) fun hn => .inr ⟨h.symm, hn⟩
    · exact .inl (.inl h)

/-- Registers resolvers; of two with one id the later stays. -/
def ofResolvers (resolvers : List (Resolver m)) : Evaluator m :=
  let byId := KeyMap.ofList (resolvers.map fun r => (r.id, r))
  ⟨byId, Order.sort notAfter (byId.values.filter (·.isInChain))⟩

/-- Whether no resolver is registered. -/
def isEmpty (ev : Evaluator m) : Bool := ev.byId.isEmpty

/-- The ids of the default chain in the order in which they are asked. -/
def chainIds (ev : Evaluator m) : List String := ev.chain.map (·.id)

/-- The name of an evaluation under way. -/
def identity (id expression : String) : String := id ++ ":" ++ expression

/-- What stands for a placeholder without an answer. -/
def standIn (mask : Bool) (body : List Char) : List Char :=
  if mask then ['?', '\x7b'] ++ body ++ ['\x7d'] else []

variable [Monad m]

/-- Asks a resolver and renders its answer. -/
def attempt (render : List Char → StateT Flight m Rendered) (scope : Scope) (r : Resolver m)
    (expression : String) : StateT Flight m Attempt := do
  let flight ← get
  let identity := identity r.id expression
  if identity ∈ flight.stack then return .cycle
  if maxSteps ≤ flight.steps then
    set { flight with isExhausted := true }
    return .exhausted
  set { flight with steps := flight.steps + 1 }
  match ← (r.evaluate expression scope : m _) with
  | .ok (some answer) =>
    modify fun flight => { flight with stack := identity :: flight.stack }
    let rendered ← render answer.toList
    modify fun flight => { flight with stack := flight.stack.tail }
    return .found rendered
  | _ => return .miss

/-- Asks resolvers in turn until one answers or is refused. -/
def attemptChain (render : List Char → StateT Flight m Rendered) (scope : Scope)
    (expression : String) : List (Resolver m) → StateT Flight m (Option Rendered)
  | [] => return none
  | r :: rest => do
    match ← attempt render scope r expression with
    | .found answer => return some answer
    | .miss => attemptChain render scope expression rest
    | .cycle | .exhausted => return none

/-- The resolver that an expression names, and the expression it is to answer. -/
def named? (ev : Evaluator m) (expression : List Char) : Option (Resolver m × String) := do
  let (id, rest) ← Text.cutAt? (· = ':') expression
  let r ← ev.byId.get? (String.ofList id)
  return (r, String.ofList rest)

/-- The answer to a placeholder. -/
def expand (ev : Evaluator m) (render : List Char → StateT Flight m Rendered) (scope : Scope)
    (body : List Char) : StateT Flight m (Option Rendered) := do
  if (← get).isExhausted then return none
  let inner ← render body
  if !inner.isComplete then return none
  match ev.named? inner.text with
  | some (r, rest) =>
    match ← attempt render scope r rest with
    | .found answer => return some answer
    | _ => return none
  | none => attemptChain render scope (String.ofList inner.text) ev.chain

/-- Renders segments, answering placeholders by `expand`. -/
def renderSegments (mask : Bool) (expand : List Char → StateT Flight m (Option Rendered)) :
    List Segment → StateT Flight m Rendered
  | [] => return .verbatim []
  | .literal text :: rest => do
    let behind ← renderSegments mask expand rest
    return (Rendered.verbatim text).append behind
  | .escaped :: rest => do
    let behind ← renderSegments mask expand rest
    return (Rendered.verbatim Segment.opening).append behind
  | .expression body :: rest => do
    let answer ← expand body
    let behind ← renderSegments mask expand rest
    return (answer.getD ⟨standIn mask body, false⟩).append behind

/-- Renders a text in which placeholders may still be nested `levels` deep. -/
def renderWithin (ev : Evaluator m) (mask : Bool) (scope : Scope) :
    Nat → List Char → StateT Flight m Rendered
  | 0, text => renderSegments mask (fun _ => return none) (Segment.split text)
  | levels + 1, text =>
    renderSegments mask (ev.expand (ev.renderWithin mask scope levels) scope) (Segment.split text)

/-- Renders a value while the evaluations of `stack` are under way. -/
def render (ev : Evaluator m) (mask : Bool) (scope : Scope) (stack : List String)
    (value : String) : m Rendered :=
  (ev.renderWithin mask scope maxDepth value.toList).run' (.start stack)

/-- The text of a value after rendering. Placeholders without an answer are masked or dropped. -/
def resolve (ev : Evaluator m) (mask : Bool) (scope : Scope) (value : String) : m String := do
  return String.ofList (← ev.render mask scope [] value).text

/-- The text of the value of a key. The key counts as under way, so a value that leads back to it is
not followed. -/
def resolveKey (ev : Evaluator m) (mask : Bool) (scope : Scope) (key value : String) :
    m String := do
  return String.ofList (← ev.render mask scope [identity "conf" key] value).text

end Evaluator

end LayeredConfig
