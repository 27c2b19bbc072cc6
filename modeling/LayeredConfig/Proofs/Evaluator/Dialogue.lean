import LayeredConfig.Proofs.Evaluator.Following
import LayeredConfig.Proofs.Evaluator.Reference

/-! # Rendering as a dialogue

Rendering asks resolvers, and what it does next depends on what they answer. `Evaluator.dialogue` is
rendering with the answers left open: a tree that branches where a resolver is asked, and that tells
of every request how deep it is made, which evaluations are under way and what the state is then.
Answering the requests of the tree by what the resolvers do in a world is rendering in that world
(`conduct_dialogue`), so what holds on every branch (`Dialogue.Runs`) holds whatever resolvers
answer. Branches are finite: rendering comes to an end if every request on them does
(`Dialogue.conduct_ends`). -/

namespace LayeredConfig

/-- The name under which an evaluation is kept while it is under way. -/
def Question.identity (q : Question) : String := Evaluator.identity q.id q.expression

/-- A request to a resolver. -/
structure Request (m : Type → Type) where
  resolver : Resolver m
  expression : String
  /-- The number of placeholders and answers around the placeholder that makes the request. -/
  depth : Nat
  /-- The evaluations under way that were begun since rendering started, the innermost first. -/
  enclosing : List Question
  /-- The state of rendering. -/
  flight : Flight

/-- What is asked. -/
def Request.question {m : Type → Type} (q : Request m) : Question := ⟨q.resolver.id, q.expression⟩

/-- Why a request is refused. -/
inductive Refusal
  /-- The same evaluation is under way. -/
  | cycle
  /-- The steps are used up. -/
  | exhausted

/-- What becomes of a request. -/
inductive Event (m : Type → Type)
  | asked (request : Request m)
  | refused (cause : Refusal) (request : Request m)

namespace Event

variable {m : Type → Type}

def request : Event m → Request m
  | asked q => q
  | refused _ q => q

def isAsked : Event m → Bool
  | asked _ => true
  | refused _ _ => false

def isCycle : Event m → Bool
  | refused .cycle _ => true
  | _ => false

end Event

/-- A computation that asks resolvers and goes on as they answer. -/
inductive Dialogue (m : Type → Type) (α : Type)
  | done (a : α)
  | ask (request : Request m) (next : Result (Option String) → Dialogue m α)
  | refuse (cause : Refusal) (request : Request m) (next : Dialogue m α)

namespace Dialogue

variable {m : Type → Type} {α β : Type}

/-- One dialogue behind another. -/
def bind : Dialogue m α → (α → Dialogue m β) → Dialogue m β
  | done a, f => f a
  | ask request next, f => ask request fun answer => (next answer).bind f
  | refuse cause request next, f => refuse cause request (next.bind f)

instance : Monad (Dialogue m) where
  pure := done
  bind := bind

theorem bind_done (x : Dialogue m α) : x.bind done = x := by
  induction x with
  | done a => rfl
  | ask request next ih => exact congrArg (ask request) (funext ih)
  | refuse cause request next ih => exact congrArg (refuse cause request) ih

theorem bind_bind {γ : Type} (x : Dialogue m α) (f : α → Dialogue m β) (g : β → Dialogue m γ) :
    (x.bind f).bind g = x.bind fun a => (f a).bind g := by
  induction x with
  | done a => rfl
  | ask request next ih => exact congrArg (ask request) (funext ih)
  | refuse cause request next ih => exact congrArg (refuse cause request) ih

instance : LawfulMonad (Dialogue m) := LawfulMonad.mk' _ bind_done (fun _ _ => rfl) bind_bind

/-- What a dialogue comes to when the resolvers answer it. -/
def conduct [Monad m] (scope : Scope) : Dialogue m α → m α
  | done a => pure a
  | ask request next => do
    let answer ← request.resolver.evaluate request.expression scope
    (next answer).conduct scope
  | refuse _ _ next => next.conduct scope

theorem conduct_bind [Monad m] [LawfulMonad m] (scope : Scope) (x : Dialogue m α)
    (f : α → Dialogue m β) :
    (x >>= f).conduct scope = x.conduct scope >>= fun a => (f a).conduct scope := by
  induction x with
  | done a => exact (pure_bind (m := m) a fun a => (f a).conduct scope).symm
  | ask request next ih =>
    show (request.resolver.evaluate _ _ >>= fun answer => ((next answer).bind f).conduct scope) =
      (request.resolver.evaluate _ _ >>= fun answer => (next answer).conduct scope) >>= _
    rw [bind_assoc]
    exact bind_congr ih
  | refuse cause request next ih => exact ih

theorem conduct_map [Monad m] [LawfulMonad m] (scope : Scope) (f : α → β) (x : Dialogue m α) :
    (f <$> x).conduct scope = f <$> x.conduct scope := by
  rw [← bind_pure_comp f x, ← bind_pure_comp f (x.conduct scope), conduct_bind]
  rfl

/-! ### Branches -/

/-- What may happen in a dialogue, and what it comes to then. -/
inductive Runs : Dialogue m α → List (Event m) → α → Prop
  | done (a : α) : Runs (.done a) [] a
  | ask {request : Request m} {next : Result (Option String) → Dialogue m α}
    {events : List (Event m)} {a : α} (answer : Result (Option String))
    (h : Runs (next answer) events a) : Runs (.ask request next) (.asked request :: events) a
  | refuse {cause : Refusal} {request : Request m} {next : Dialogue m α}
    {events : List (Event m)} {a : α} (h : Runs next events a) :
    Runs (.refuse cause request next) (.refused cause request :: events) a

theorem exists_runs (x : Dialogue m α) : ∃ events a, x.Runs events a := by
  induction x with
  | done a => exact ⟨[], a, .done a⟩
  | ask request next ih =>
    obtain ⟨events, a, h⟩ := ih (.ok none)
    exact ⟨_, a, .ask _ h⟩
  | refuse cause request next ih =>
    obtain ⟨events, a, h⟩ := ih
    exact ⟨_, a, .refuse h⟩

/-- What happens in one dialogue behind another. -/
theorem Runs.of_bind {x : Dialogue m α} {f : α → Dialogue m β} {events : List (Event m)} {b : β}
    (h : (x >>= f).Runs events b) :
    ∃ before a behind, x.Runs before a ∧ (f a).Runs behind b ∧ events = before ++ behind := by
  induction x generalizing events with
  | done a => exact ⟨[], a, events, .done a, h, rfl⟩
  | ask request next ih =>
    cases h with
    | ask answer h =>
      obtain ⟨before, a, behind, hx, hf, rfl⟩ := ih answer h
      exact ⟨_ :: before, a, behind, .ask answer hx, hf, rfl⟩
  | refuse cause request next ih =>
    cases h with
    | refuse h =>
      obtain ⟨before, a, behind, hx, hf, rfl⟩ := ih h
      exact ⟨_ :: before, a, behind, .refuse hx, hf, rfl⟩

/-- What leaves every end as it is leaves the dialogue as it is. -/
theorem map_eq_self {f : α → α} {x : Dialogue m α} (h : ∀ events a, x.Runs events a → f a = a) :
    f <$> x = x := by
  rw [← bind_pure_comp f x]
  induction x with
  | done a => exact congrArg done (h _ _ (.done a))
  | ask request next ih =>
    refine congrArg (ask request) (funext fun answer => ?_)
    exact ih answer fun events a hr => h _ a (.ask answer hr)
  | refuse cause request next ih =>
    exact congrArg (refuse cause request) (ih fun events a hr => h _ a (.refuse hr))

end Dialogue

namespace Dialogue

variable {α : Type}

/-- What happens when the resolvers are functions, and what the dialogue comes to. -/
def recount (scope : Scope) : Dialogue Id α → List (Event Id) × α
  | done a => ([], a)
  | ask request next =>
    let rest := (next (request.resolver.evaluate request.expression scope).run).recount scope
    (.asked request :: rest.1, rest.2)
  | refuse cause request next =>
    let rest := next.recount scope
    (.refused cause request :: rest.1, rest.2)

theorem runs_recount (x : Dialogue Id α) (scope : Scope) :
    x.Runs (x.recount scope).1 (x.recount scope).2 := by
  induction x with
  | done a => exact .done a
  | ask request next ih => exact .ask _ (ih _)
  | refuse cause request next ih => exact .refuse ih

end Dialogue

/-- A property of computations that results have and that sequences of computations keep, such as
that of coming to an end. -/
structure IsComposable {m : Type → Type} [Monad m] (Ends : (α : Type) → m α → Prop) : Prop where
  pure {α : Type} (a : α) : Ends α (pure a)
  bind {α β : Type} {x : m α} {f : α → m β} (hx : Ends α x) (hf : ∀ a, Ends β (f a)) :
    Ends β (x >>= f)

/-- A dialogue comes to an end when all answers to it do. -/
theorem Dialogue.conduct_ends {m : Type → Type} [Monad m] {Ends : (α : Type) → m α → Prop}
    (hends : IsComposable Ends) {scope : Scope} {α : Type} {x : Dialogue m α}
    (h : ∀ events a, x.Runs events a → ∀ request, .asked request ∈ events →
      Ends _ (request.resolver.evaluate request.expression scope)) :
    Ends α (x.conduct scope) := by
  induction x with
  | done a => exact hends.pure a
  | ask request next ih =>
    refine hends.bind ?_ fun answer => ih answer fun events a hr request hmem => ?_
    · obtain ⟨events, a, hr⟩ := (next (.ok none)).exists_runs
      exact h _ a (.ask _ hr) request List.mem_cons_self
    · exact h _ a (.ask answer hr) request (List.mem_cons_of_mem _ hmem)
  | refuse cause request next ih =>
    refine ih fun events a hr request hmem => ?_
    exact h _ a (.refuse hr) request (List.mem_cons_of_mem _ hmem)

namespace Evaluator

variable {m : Type → Type}

/-! ### Rendering with the answers left open -/

/-- Computations that render, with the answers left open. -/
abbrev Asking (m : Type → Type) := StateT Flight (Dialogue m)

/-- `attempt` with the answer left open. -/
def attemptAsking (render : List Question → List Char → Asking m Rendered) (depth : Nat)
    (enclosing : List Question) (r : Resolver m) (expression : String) : Asking m Attempt :=
  fun flight =>
    let request : Request m := ⟨r, expression, depth, enclosing, flight⟩
    let identity := request.question.identity
    if identity ∈ flight.stack then .refuse .cycle request (.done (.cycle, flight))
    else if maxSteps ≤ flight.steps then
      .refuse .exhausted request (.done (.exhausted, { flight with isExhausted := true }))
    else
      .ask request fun
        | .ok (some answer) => do
          let (rendered, flight) ← (render (request.question :: enclosing) answer.toList).run
            ⟨identity :: flight.stack, flight.steps + 1, flight.isExhausted⟩
          return (.found rendered, { flight with stack := flight.stack.tail })
        | _ => .done (.miss, { flight with steps := flight.steps + 1 })

/-- `attemptChain` with the answers left open. -/
def attemptChainAsking (render : List Question → List Char → Asking m Rendered) (depth : Nat)
    (enclosing : List Question) (expression : String) :
    List (Resolver m) → Asking m (Option Rendered)
  | [] => return none
  | r :: rest => do
    match ← attemptAsking render depth enclosing r expression with
    | .found answer => return some answer
    | .miss => attemptChainAsking render depth enclosing expression rest
    | .cycle | .exhausted => return none

/-- `expand` with the answers left open. -/
def expandAsking (ev : Evaluator m) (render : List Question → List Char → Asking m Rendered)
    (depth : Nat) (enclosing : List Question) (body : List Char) :
    Asking m (Option Rendered) := do
  if (← get).isExhausted then return none
  let inner ← render enclosing body
  if !inner.isComplete then return none
  match ev.named? inner.text with
  | some (r, rest) =>
    match ← attemptAsking render depth enclosing r rest with
    | .found answer => return some answer
    | _ => return none
  | none => attemptChainAsking render depth enclosing (String.ofList inner.text) ev.chain

/-- `renderWithin` with the answers left open. Bodies and answers are one level deeper than the
placeholder. -/
def renderAsking (ev : Evaluator m) (mask : Bool) :
    Nat → Nat → List Question → List Char → Asking m Rendered
  | 0, _, _, text => renderSegments mask (fun _ => return none) (Segment.split text)
  | levels + 1, depth, enclosing, text =>
    renderSegments mask
      (ev.expandAsking (ev.renderAsking mask levels (depth + 1)) depth enclosing)
      (Segment.split text)

/-- `render` with the answers left open. -/
def dialogue (ev : Evaluator m) (mask : Bool) (stack : List String) (value : String) :
    Dialogue m Rendered :=
  (ev.renderAsking mask maxDepth 0 [] value.toList).run' (.start stack)

/-! ### The answers of a world -/

variable [Monad m] {α β : Type} {scope : Scope}

/-- Whether rendering with the answers left open comes, with those of a world, to rendering in that
world. -/
def Tells (scope : Scope) (x : Asking m α) (y : StateT Flight m α) : Prop :=
  ∀ flight, (x.run flight).conduct scope = y.run flight

theorem Tells.pure (a : α) : Tells scope (pure a : Asking m α) (pure a) := fun _ => rfl

theorem Tells.get : Tells scope (get : Asking m Flight) get := fun _ => rfl

variable [LawfulMonad m]

theorem Tells.bind {x : Asking m α} {y : StateT Flight m α} {f : α → Asking m β}
    {g : α → StateT Flight m β} (hx : Tells scope x y) (hf : ∀ a, Tells scope (f a) (g a)) :
    Tells scope (x >>= f) (y >>= g) := by
  intro flight
  rw [StateT.run_bind, StateT.run_bind, Dialogue.conduct_bind, hx flight]
  exact bind_congr fun p => hf p.1 p.2

variable {render : List Char → StateT Flight m Rendered}
  {asking : List Question → List Char → Asking m Rendered}

/-- What `attempt` does, said of the state it begins in. -/
theorem run_attempt (r : Resolver m) (expression : String) (flight : Flight) :
    (attempt render scope r expression).run flight =
      if identity r.id expression ∈ flight.stack then pure (.cycle, flight)
      else if maxSteps ≤ flight.steps then pure (.exhausted, { flight with isExhausted := true })
      else do
        match ← r.evaluate expression scope with
        | .ok (some answer) => do
          let (rendered, flight) ← (render answer.toList).run
            ⟨identity r.id expression :: flight.stack, flight.steps + 1, flight.isExhausted⟩
          return (.found rendered, { flight with stack := flight.stack.tail })
        | _ => return (.miss, { flight with steps := flight.steps + 1 }) := by
  unfold attempt
  by_cases hcycle : identity r.id expression ∈ flight.stack
  · simp [hcycle]
  by_cases hsteps : maxSteps ≤ flight.steps
  · simp [hcycle, hsteps]
  · simp only [bind_pure_comp, StateT.run_bind, StateT.run_get, pure_bind, hcycle, ↓reduceIte,
      hsteps, StateT.run_set, StateT.run_monadLift, monadLift_self, bind_map_left]
    refine bind_congr fun answer => ?_
    rcases answer with e | (_ | answer)
    · rfl
    · rfl
    · simp

theorem tells_attempt (h : ∀ enclosing text, Tells scope (asking enclosing text) (render text))
    (depth : Nat) (enclosing : List Question) (r : Resolver m) (expression : String) :
    Tells scope (attemptAsking asking depth enclosing r expression)
      (attempt render scope r expression) := by
  intro flight
  rw [run_attempt]
  show Dialogue.conduct scope (if identity r.id expression ∈ flight.stack then _ else _) = _
  split
  · rfl
  · show Dialogue.conduct scope (if maxSteps ≤ flight.steps then _ else _) = _
    split
    · rfl
    · refine bind_congr fun answer => ?_
      rcases answer with e | (_ | answer)
      · rfl
      · rfl
      · show Dialogue.conduct scope (_ >>= _) = _
        rw [Dialogue.conduct_bind, h]
        rfl

theorem tells_attemptChain (h : ∀ enclosing text, Tells scope (asking enclosing text) (render text))
    (depth : Nat) (enclosing : List Question) (expression : String) (chain : List (Resolver m)) :
    Tells scope (attemptChainAsking asking depth enclosing expression chain)
      (attemptChain render scope expression chain) := by
  induction chain with
  | nil => exact .pure _
  | cons r rest ih =>
    refine .bind (tells_attempt h depth enclosing r expression) fun attempt => ?_
    cases attempt with
    | found answer => exact .pure _
    | miss => exact ih
    | cycle => exact .pure _
    | exhausted => exact .pure _

theorem tells_expand (ev : Evaluator m)
    (h : ∀ enclosing text, Tells scope (asking enclosing text) (render text)) (depth : Nat)
    (enclosing : List Question) (body : List Char) :
    Tells scope (ev.expandAsking asking depth enclosing body) (ev.expand render scope body) := by
  refine .bind .get fun flight => ?_
  split
  · exact .pure _
  · refine .bind (h _ _) fun inner => ?_
    split
    · exact .pure _
    · cases ev.named? inner.text with
      | none => exact tells_attemptChain h depth enclosing _ _
      | some named =>
        refine .bind (tells_attempt h depth enclosing named.1 named.2) fun attempt => ?_
        cases attempt <;> exact .pure _

theorem tells_renderSegments (mask : Bool) {ask : List Char → Asking m (Option Rendered)}
    {expand : List Char → StateT Flight m (Option Rendered)}
    (h : ∀ body, Tells scope (ask body) (expand body)) (segments : List Segment) :
    Tells scope (renderSegments mask ask segments) (renderSegments mask expand segments) :=
  renderSegments_rel (R := fun _ => Tells scope) (fun _ => .pure) (fun _ _ _ _ _ _ => .bind) mask h
    segments

theorem tells_renderWithin (ev : Evaluator m) (mask : Bool) (scope : Scope) (levels depth : Nat)
    (enclosing : List Question) (text : List Char) :
    Tells scope (ev.renderAsking mask levels depth enclosing text)
      (ev.renderWithin mask scope levels text) := by
  induction levels generalizing depth enclosing text with
  | zero => exact tells_renderSegments mask (fun _ => .pure _) _
  | succ levels ih =>
    exact tells_renderSegments mask (tells_expand ev (ih (depth + 1)) depth enclosing) _

/-- Answered by the resolvers of a world, the dialogue is rendering in that world. -/
theorem conduct_dialogue (ev : Evaluator m) (mask : Bool) (scope : Scope) (stack : List String)
    (value : String) :
    (ev.dialogue mask stack value).conduct scope = ev.render mask scope stack value := by
  unfold dialogue render
  rw [StateT.run'_eq, StateT.run'_eq, Dialogue.conduct_map,
    tells_renderWithin ev mask scope maxDepth 0 [] value.toList (.start stack)]

end Evaluator

end LayeredConfig
