import LayeredConfig.Proofs.Evaluator.Dialogue
import LayeredConfig.Proofs.Placeholder.Canonical

/-! # Escaping

A text whose openings all have a backslash in front (`escape`) is rendered as the text without them,
however many backslashes, dollars and braces it has besides: splitting it finds escaped openings and
single characters (`split_escape_opening`, `split_escape_cons`), and no resolver is asked
(`dialogue_escape`). A text without an opening is its own escape, so it need not be split at all
(`render_of_no_opening`).

An answer is rendered like a value, so that an escaped one is taken as it is meant. To say so, the
answer to a placeholder is cut in two: `seek` finds the resolver that answers, and `settle` renders
its answer (`expand_eq_seek_settle`). -/

namespace LayeredConfig

namespace Segment

/-- A backslash in front of every opening. -/
def escape : List Char → List Char
  | '$' :: '\x7b' :: cs => escapedOpening ++ escape cs
  | c :: cs => c :: escape cs
  | [] => []

variable {c : Char} {cs : List Char}

theorem escape_opening (cs : List Char) : escape (opening ++ cs) = escapedOpening ++ escape cs :=
  escape.eq_1 cs

theorem escape_cons (h : ¬ opening <+: c :: cs) : escape (c :: cs) = c :: escape cs :=
  escape.eq_2 c cs (not_opening_prefix_iff.1 h)

/-- What goes on behind an opening and behind any other character goes on to the end of a text. -/
theorem opening_induction {motive : List Char → Prop} (nil : motive [])
    (opened : ∀ cs, motive cs → motive (opening ++ cs))
    (other : ∀ c cs, ¬ opening <+: c :: cs → motive cs → motive (c :: cs)) (cs : List Char) :
    motive cs := by
  induction cs using reading_induction with
  | nil => exact nil
  | opened cs ih => exact opened cs ih
  | closed cs ih => exact other _ cs (not_opening_prefix_of_ne (by decide)) ih
  | other c cs hopen _ ih => exact other c cs hopen ih

/-- An escaped text begins with the second character of an opening only if the text does. -/
theorem head?_escape (h : (escape cs).head? = some '\x7b') : cs.head? = some '\x7b' := by
  induction cs using opening_induction with
  | nil => exact h
  | opened cs _ =>
    rw [escape_opening] at h
    simp [escapedOpening] at h
  | other c cs hopen _ => rwa [escape_cons hopen] at h

theorem not_opening_prefix_cons_escape (h : ¬ opening <+: c :: cs) :
    ¬ opening <+: c :: escape cs := by
  refine not_opening_prefix_iff.2 fun rest hc hrest => ?_
  have hhead := head?_escape (hrest ▸ rfl : (escape cs).head? = _)
  obtain ⟨tail, rfl⟩ := List.head?_eq_some_iff.1 hhead
  exact not_opening_prefix_iff.1 h tail hc rfl

theorem not_opening_prefix_escape (cs : List Char) : ¬ opening <+: escape cs := by
  induction cs using opening_induction with
  | nil => decide
  | opened cs _ =>
    rw [escape_opening]
    simp [escapedOpening, opening]
  | other c cs hopen _ =>
    rw [escape_cons hopen]
    exact not_opening_prefix_cons_escape hopen

theorem split_escape_opening (cs : List Char) :
    split (escape (opening ++ cs)) = escaped :: split (escape cs) := by
  rw [escape_opening, split_escaped]

/-- A backslash in front of an opening is in front of an escaped one, and stays. -/
theorem split_escape_cons (h : ¬ opening <+: c :: cs) :
    split (escape (c :: cs)) = withChar c (split (escape cs)) := by
  rw [escape_cons h]
  refine split_cons (not_opening_prefix_cons_escape h) fun hescaped => ?_
  exact not_opening_prefix_escape cs (escapedOpening_prefix_cons_iff.1 hescaped).2

theorem escape_eq_self (h : ¬ opening <:+: cs) : escape cs = cs := by
  induction cs using opening_induction with
  | nil => rfl
  | opened cs _ => exact absurd (List.prefix_append opening cs).isInfix h
  | other c cs hopen ih =>
    rw [escape_cons hopen, ih fun hinfix => h (List.infix_cons_iff.2 (.inr hinfix))]

end Segment

theorem Rendered.append_assoc (a b c : Rendered) :
    (a.append b).append c = a.append (b.append c) := by
  simp [append, Bool.and_assoc]

namespace Evaluator

open Segment

/-! ### Rendering an escaped text -/

section Rendering

variable {m : Type → Type} [Monad m] [LawfulMonad m] {mask : Bool}
  {expand : List Char → StateT Flight m (Option Rendered)}

theorem renderSegments_withChar (c : Char) (segments : List Segment) :
    renderSegments mask expand (withChar c segments) = (do
      let behind ← renderSegments mask expand segments
      return (Rendered.verbatim [c]).append behind) := by
  cases segments with
  | nil => rfl
  | cons s rest =>
    cases s with
    | literal text =>
      unfold withChar renderSegments
      rw [bind_assoc]
      refine bind_congr fun behind => ?_
      rw [pure_bind]
      rfl
    | escaped => rfl
    | expression body => rfl

/-- An escaped text is rendered as it is meant, and nothing is done for it. -/
theorem renderSegments_escape (cs : List Char) :
    renderSegments mask expand (split (escape cs)) = pure (.verbatim cs) := by
  induction cs using opening_induction with
  | nil =>
    rw [escape, split_nil]
    rfl
  | opened cs ih =>
    rw [split_escape_opening, renderSegments, ih, pure_bind]
    rfl
  | other c cs hopen ih =>
    rw [split_escape_cons hopen, renderSegments_withChar, ih, pure_bind]
    rfl

theorem renderWithin_escape (ev : Evaluator m) (mask : Bool) (scope : Scope) (levels : Nat)
    (cs : List Char) : ev.renderWithin mask scope levels (escape cs) = pure (.verbatim cs) := by
  cases levels with
  | zero => exact renderSegments_escape cs
  | succ levels => exact renderSegments_escape cs

theorem render_escape (ev : Evaluator m) (mask : Bool) (scope : Scope) (stack : List String)
    (cs : List Char) :
    ev.render mask scope stack (String.ofList (escape cs)) = pure (.verbatim cs) := by
  rw [render, String.toList_ofList, renderWithin_escape, StateT.run'_eq, StateT.run_pure,
    map_pure]

end Rendering

/-- No request is made for an escaped text. -/
theorem dialogue_escape {m : Type → Type} (ev : Evaluator m) (mask : Bool) (stack : List String)
    (cs : List Char) :
    ev.dialogue mask stack (String.ofList (escape cs)) = .done (.verbatim cs) := by
  rw [dialogue, String.toList_ofList]
  exact congrArg (fun x : Asking m Rendered => x.run' (.start stack)) (renderSegments_escape cs)

/-- A text without an opening is rendered as it is. -/
theorem render_of_no_opening {m : Type → Type} [Monad m] [LawfulMonad m] (ev : Evaluator m)
    (mask : Bool) (scope : Scope) (stack : List String) {value : String}
    (h : ¬ opening <:+: value.toList) :
    ev.render mask scope stack value = pure (.verbatim value.toList) := by
  have hrender := ev.render_escape mask scope stack value.toList
  rwa [escape_eq_self h, String.ofList_toList] at hrender

/-! ### The answer to a placeholder -/

section Answers

variable {m : Type → Type} [Monad m]

/-- An answer as the resolver gave it, and the evaluation that came to it. -/
structure Found where
  identity : String
  answer : String

/-- What came of asking a resolver, its answer not rendered. -/
inductive Sought
  | found (found : Found)
  | miss
  | refused (cause : Refusal)

/-- `attempt` up to the answer. -/
def seekFrom (scope : Scope) (r : Resolver m) (expression : String) : StateT Flight m Sought := do
  let flight ← get
  let identity := identity r.id expression
  if identity ∈ flight.stack then return .refused .cycle
  if maxSteps ≤ flight.steps then
    set { flight with isExhausted := true }
    return .refused .exhausted
  set { flight with steps := flight.steps + 1 }
  match ← (r.evaluate expression scope : m _) with
  | .ok (some answer) => return .found ⟨identity, answer⟩
  | _ => return .miss

/-- `attemptChain` up to the answer. -/
def seekInChain (scope : Scope) (expression : String) :
    List (Resolver m) → StateT Flight m (Option Found)
  | [] => return none
  | r :: rest => do
    match ← seekFrom scope r expression with
    | .found found => return some found
    | .miss => seekInChain scope expression rest
    | .refused _ => return none

/-- `expand` up to the answer. -/
def seek (ev : Evaluator m) (render : List Char → StateT Flight m Rendered) (scope : Scope)
    (body : List Char) : StateT Flight m (Option Found) := do
  if (← get).isExhausted then return none
  let inner ← render body
  if !inner.isComplete then return none
  match ev.named? inner.text with
  | some (r, rest) =>
    match ← seekFrom scope r rest with
    | .found found => return some found
    | _ => return none
  | none => seekInChain scope (String.ofList inner.text) ev.chain

/-- Renders an answer while the evaluation that came to it is under way. -/
def settle (render : List Char → StateT Flight m Rendered) (found : Found) :
    StateT Flight m Rendered := do
  modify fun flight => { flight with stack := found.identity :: flight.stack }
  let rendered ← render found.answer.toList
  modify fun flight => { flight with stack := flight.stack.tail }
  return rendered

/-- What an attempt comes to. -/
def Sought.settle (render : List Char → StateT Flight m Rendered) :
    Sought → StateT Flight m Attempt
  | .found answer => .found <$> Evaluator.settle render answer
  | .miss => return .miss
  | .refused .cycle => return .cycle
  | .refused .exhausted => return .exhausted

variable [LawfulMonad m] {render : List Char → StateT Flight m Rendered} {scope : Scope}

theorem attempt_eq_seekFrom_settle (r : Resolver m) (expression : String) :
    attempt render scope r expression = seekFrom scope r expression >>= Sought.settle render := by
  refine StateT.ext fun flight => ?_
  rw [run_attempt]
  unfold seekFrom
  by_cases hcycle : identity r.id expression ∈ flight.stack
  · simp [hcycle, Sought.settle]
  by_cases hsteps : maxSteps ≤ flight.steps
  · simp [hcycle, hsteps, Sought.settle]
  · simp only [StateT.run_bind, StateT.run_get, pure_bind, hcycle, ↓reduceIte,
      hsteps, StateT.run_set, StateT.run_monadLift, monadLift_self, bind_assoc]
    refine bind_congr fun answer => ?_
    rcases answer with e | (_ | answer)
    · simp [Sought.settle]
    · simp [Sought.settle]
    · simp [Sought.settle, settle]

theorem attemptChain_eq_seekInChain_settle (expression : String) (chain : List (Resolver m)) :
    attemptChain render scope expression chain =
      seekInChain scope expression chain >>= fun found => found.mapM (settle render) := by
  induction chain with
  | nil => simp [attemptChain, seekInChain]
  | cons r rest ih =>
    rw [attemptChain, attempt_eq_seekFrom_settle, seekInChain, bind_assoc, bind_assoc]
    refine bind_congr fun sought => ?_
    cases sought with
    | found found => simp [Sought.settle]
    | miss => simp [Sought.settle, ih]
    | refused cause => cases cause <;> simp [Sought.settle]

/-- A placeholder is answered by finding an answer and rendering it. -/
theorem expand_eq_seek_settle (ev : Evaluator m) (body : List Char) :
    ev.expand render scope body =
      ev.seek render scope body >>= fun found => found.mapM (settle render) := by
  unfold expand seek
  rw [bind_assoc]
  refine bind_congr fun flight => ?_
  split
  · simp
  · rw [bind_assoc]
    refine bind_congr fun inner => ?_
    split
    · simp
    · cases ev.named? inner.text with
      | none => exact attemptChain_eq_seekInChain_settle _ ev.chain
      | some named =>
        show attempt render scope named.1 named.2 >>= _ =
          (seekFrom scope named.1 named.2 >>= _) >>= _
        rw [attempt_eq_seekFrom_settle, bind_assoc, bind_assoc]
        refine bind_congr fun sought => ?_
        cases sought with
        | found answer => simp [Sought.settle]
        | miss => simp [Sought.settle]
        | refused cause => cases cause <;> simp [Sought.settle]

/-- The answer that is an escaped text is taken as it is meant, and nothing is done for it. -/
theorem settle_escape (ev : Evaluator m) (mask : Bool) (levels : Nat) (identity : String)
    (cs : List Char) :
    settle (ev.renderWithin mask scope levels) ⟨identity, String.ofList (escape cs)⟩ =
      pure (.verbatim cs) := by
  unfold settle
  rw [String.toList_ofList, renderWithin_escape]
  refine StateT.ext fun flight => ?_
  simp

/-! ### A placeholder among other segments -/

theorem renderSegments_append {mask : Bool}
    {expand : List Char → StateT Flight m (Option Rendered)} (before after : List Segment) :
    renderSegments mask expand (before ++ after) = (do
      let front ← renderSegments mask expand before
      let behind ← renderSegments mask expand after
      return front.append behind) := by
  induction before with
  | nil =>
    rw [renderSegments, pure_bind]
    exact (bind_pure _).symm
  | cons s before ih =>
    cases s with
    | literal text =>
      simp only [List.cons_append, renderSegments, ih, bind_assoc, pure_bind,
        Rendered.append_assoc]
    | escaped =>
      simp only [List.cons_append, renderSegments, ih, bind_assoc, pure_bind,
        Rendered.append_assoc]
    | expression body =>
      simp only [List.cons_append, renderSegments, ih, bind_assoc, pure_bind,
        Rendered.append_assoc]

end Answers

/-- **Escaping is undone by rendering.** An escaped text is rendered as it is meant, in any state
and without a request to a resolver. A placeholder is rendered by finding an answer and settling it,
with the text in front of it and behind it rendered for themselves; and an answer that is an escaped
text is settled as that text is meant, with no more being done for it. -/
theorem escape_undone {m : Type → Type} [Monad m] [LawfulMonad m] (ev : Evaluator m) (mask : Bool)
    (scope : Scope) (cs : List Char) :
    (∀ stack, ev.dialogue mask stack (String.ofList (escape cs)) = .done ⟨cs, true⟩ ∧
      ev.render mask scope stack (String.ofList (escape cs)) = pure ⟨cs, true⟩) ∧
    ∀ levels render, render = ev.renderWithin mask scope levels →
      (∀ text before body after, split text = before ++ expression body :: after →
        ev.renderWithin mask scope (levels + 1) text = (do
          let front ← renderSegments mask (ev.expand render scope) before
          let found ← ev.seek render scope body
          let answer ← found.mapM (settle render)
          let behind ← renderSegments mask (ev.expand render scope) after
          return front.append ((answer.getD ⟨standIn mask body, false⟩).append behind))) ∧
      ∀ identity, settle render ⟨identity, String.ofList (escape cs)⟩ = pure ⟨cs, true⟩ := by
  refine ⟨fun stack => ⟨ev.dialogue_escape mask stack cs, ev.render_escape mask scope stack cs⟩, ?_⟩
  rintro levels render rfl
  refine ⟨fun text before body after hsplit => ?_,
    fun identity => ev.settle_escape mask levels identity cs⟩
  rw [renderWithin, hsplit, renderSegments_append, renderSegments, expand_eq_seek_settle]
  simp only [bind_assoc, pure_bind]

/-- The text `\${a}`, the backslash included. -/
def backslashed : List Char := "\\$\x7ba\x7d".toList

/-- Answers everything by one escaped text, and counts how often it is asked. -/
def counting : Resolver (StateM Nat) where
  id := "t"
  evaluate _ _ := do
    modify (· + 1)
    return .ok (some (String.ofList (escape backslashed)))

/-- The escaped text is rendered without a question, and as an answer with one. -/
theorem escape_undone_counting :
    ((ofResolvers [counting]).render true .empty ["conf:key"]
        (String.ofList (escape backslashed))).run 0 = pure (⟨backslashed, true⟩, 0) ∧
      settle ((ofResolvers [counting]).renderWithin true .empty 31)
        ⟨"t:b", String.ofList (escape backslashed)⟩ = pure ⟨backslashed, true⟩ ∧
      (((ofResolvers [counting]).render true .empty [] "<$\x7bb\x7d>").run 0).run =
        (⟨'<' :: (backslashed ++ ['>']), true⟩, 1) := by
  obtain ⟨hvalue, hanswer⟩ := escape_undone (ofResolvers [counting]) true .empty backslashed
  have hplaceholder := (hanswer 31 _ rfl).1 "<$\x7bb\x7d>".toList [.literal ['<']] ['b']
    [.literal ['>']] (by decide +kernel)
  refine ⟨?_, (hanswer 31 _ rfl).2 "t:b", ?_⟩
  · rw [(hvalue ["conf:key"]).2]
    rfl
  · refine (congrArg (fun x => ((x.run' (.start [])).run 0).run) hplaceholder).trans ?_
    decide +kernel

end Evaluator

end LayeredConfig
