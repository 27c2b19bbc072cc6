import LayeredConfig.Proofs.Evaluator.Dialogue
import Mathlib.Data.List.Nodup

/-! # The bounds of rendering

Whatever resolvers answer, rendering stays within its bounds (`Evaluator.render_bounded`).

What one part of rendering does to the state is a `Leg`: the evaluations under way are afterwards
those of before, and as many steps are taken as resolvers are asked. Legs join, so `Proceeds` is
closed under the sequences that rendering is made of, and only asking a resolver needs an argument
of its own: what is put on the stack for the time of the answer's rendering comes off it again.

Where rendering is, is told by its `Place`. To enter an answer is to add to the place an evaluation
that was not under way; bodies and answers are one level deeper. As the levels left and the depth
add up to no more than `maxDepth`, and there is at most one evaluation for each level, the bounds
hold of every request. -/

namespace LayeredConfig

variable {m : Type → Type} {α β : Type}

/-- Whether evaluations are counted as far as the bound, and refused for their number only there. -/
structure Flight.Fair (flight : Flight) : Prop where
  steps_le : flight.steps ≤ maxSteps
  le_steps : flight.isExhausted = true → maxSteps ≤ flight.steps

theorem Flight.fair_start (stack : List String) : (start stack).Fair :=
  ⟨Nat.zero_le _, nofun⟩

namespace Evaluator

/-- The resolvers that an evaluator asks. -/
def Knows (ev : Evaluator m) (r : Resolver m) : Prop :=
  (∃ id, ev.byId.get? id = some r) ∨ r ∈ ev.chain

/-- Every resolver that is asked is found under its id. -/
theorem get?_of_knows {resolvers : List (Resolver m)} {r : Resolver m}
    (h : (ofResolvers resolvers).Knows r) : (ofResolvers resolvers).byId.get? r.id = some r := by
  rcases h with ⟨id, hr⟩ | hr
  · rw [(mem_of_get?_ofResolvers hr).2]
    exact hr
  · exact (mem_chain_iff.1 hr).1

theorem knows_ofResolvers {resolvers : List (Resolver m)} {r : Resolver m}
    (h : (ofResolvers resolvers).Knows r) : r ∈ resolvers :=
  (mem_of_get?_ofResolvers (get?_of_knows h)).1

theorem knows_of_named? {ev : Evaluator m} {text : List Char} {r : Resolver m} {rest : String}
    (h : ev.named? text = some (r, rest)) : ev.Knows r := by
  obtain ⟨cut, -, h⟩ := Option.bind_eq_some_iff.1 h
  obtain ⟨s, hs, h⟩ := Option.bind_eq_some_iff.1 h
  cases h
  exact .inl ⟨_, hs⟩

/-! ### Places -/

/-- Where rendering is: how deep, inside which evaluations, and what the stack is there if the
evaluations of `base` were under way from the start. Placeholders may still be nested `levels`
deep. -/
structure Place (ev : Evaluator m) (base : List String) (levels depth : Nat)
    (enclosing : List Question) (stack : List String) : Prop where
  stack_eq : stack = enclosing.map Question.identity ++ base
  known : ∀ q ∈ enclosing, ∃ r, ev.Knows r ∧ q.id = r.id
  nodup : (enclosing.map Question.identity).Nodup
  fresh : ∀ i ∈ enclosing.map Question.identity, i ∉ base
  length_le : enclosing.length ≤ depth
  depth_le : levels + depth ≤ maxDepth

namespace Place

variable {ev : Evaluator m} {base stack : List String} {levels depth : Nat}
  {enclosing : List Question}

theorem start (ev : Evaluator m) (base : List String) : ev.Place base maxDepth 0 [] base :=
  ⟨rfl, nofun, .nil, nofun, Nat.le_refl _, Nat.le_refl _⟩

theorem mono (h : ev.Place base levels depth enclosing stack) {fewer : Nat}
    (hle : fewer ≤ levels) : ev.Place base fewer depth enclosing stack :=
  { h with depth_le := Nat.le_trans (Nat.add_le_add_right hle depth) h.depth_le }

/-- Into the body of a placeholder. -/
theorem deepen (h : ev.Place base (levels + 1) depth enclosing stack) :
    ev.Place base levels (depth + 1) enclosing stack :=
  { h with
    length_le := Nat.le_succ_of_le h.length_le
    depth_le := by have := h.depth_le; omega }

/-- Into the answer of a resolver. -/
theorem enter (h : ev.Place base (levels + 1) depth enclosing stack) {r : Resolver m}
    (hr : ev.Knows r) {expression : String} (hfree : identity r.id expression ∉ stack) :
    ev.Place base levels (depth + 1) (⟨r.id, expression⟩ :: enclosing)
      (identity r.id expression :: stack) := by
  rw [h.stack_eq, List.mem_append, not_or] at hfree
  refine ⟨congrArg _ h.stack_eq, ?_, List.nodup_cons.2 ⟨hfree.1, h.nodup⟩, ?_,
    Nat.succ_le_succ h.length_le, h.deepen.depth_le⟩
  · rintro q hq
    rcases List.mem_cons.1 hq with rfl | hq
    · exact ⟨r, hr, rfl⟩
    · exact h.known q hq
  · intro i hi
    rcases List.mem_cons.1 hi with rfl | hi
    · exact hfree.2
    · exact h.fresh i hi

end Place

/-- What holds of a request, and of what becomes of it: it is a cycle if the same evaluation is
under way, and a resolver is asked only as long as there are steps left. -/
structure Sound (ev : Evaluator m) (base : List String) (e : Event m) : Prop where
  place : ev.Place base 1 e.request.depth e.request.enclosing e.request.flight.stack
  known : ev.Knows e.request.resolver
  fair : e.request.flight.Fair
  steps_lt : e.isAsked = true → e.request.flight.steps < maxSteps
  isCycle_iff : e.isCycle = true ↔ e.request.question.identity ∈ e.request.flight.stack

/-! ### Legs -/

/-- What a part of rendering does to the state, and what happens meanwhile. `here` says of a stack
that the part is at its place. -/
structure Leg (ev : Evaluator m) (base : List String) (here : List String → Prop) (flight : Flight)
    (events : List (Event m)) (flight' : Flight) : Prop where
  stack_eq : flight'.stack = flight.stack
  steps_eq : flight'.steps = flight.steps + events.countP Event.isAsked
  fair : flight.Fair → flight'.Fair
  sound : flight.Fair → here flight.stack → ∀ e ∈ events, ev.Sound base e

variable {ev : Evaluator m} {base : List String} {here there : List String → Prop}

theorem Leg.refl (flight : Flight) : ev.Leg base here flight [] flight :=
  ⟨rfl, rfl, id, nofun⟩

theorem Leg.trans {a b c : Flight} {events events' : List (Event m)}
    (h : ev.Leg base here a events b) (h' : ev.Leg base here b events' c) :
    ev.Leg base here a (events ++ events') c where
  stack_eq := h'.stack_eq.trans h.stack_eq
  steps_eq := by rw [h'.steps_eq, h.steps_eq, List.countP_append, Nat.add_assoc]
  fair hfair := h'.fair (h.fair hfair)
  sound hfair hhere e he := by
    rcases List.mem_append.1 he with he | he
    · exact h.sound hfair hhere e he
    · exact h'.sound (h.fair hfair) (by rw [h.stack_eq]; exact hhere) e he

/-- Whether a computation is a leg on every branch. -/
def Proceeds (ev : Evaluator m) (base : List String) (here : List String → Prop)
    (x : Asking m α) : Prop :=
  ∀ ⦃flight events a flight'⦄, (x.run flight).Runs events (a, flight') →
    ev.Leg base here flight events flight'

namespace Proceeds

theorem pure (a : α) : ev.Proceeds base here (pure a) := by
  intro flight events b flight' h
  cases h
  exact .refl _

theorem get : ev.Proceeds base here get := by
  intro flight events b flight' h
  cases h
  exact .refl _

theorem bind {x : Asking m α} {f : α → Asking m β} (hx : ev.Proceeds base here x)
    (hf : ∀ a, ev.Proceeds base here (f a)) : ev.Proceeds base here (x >>= f) := by
  intro flight events b flight' h
  rw [StateT.run_bind] at h
  obtain ⟨before, ⟨a, middle⟩, behind, hbefore, hbehind, rfl⟩ := h.of_bind
  exact (hx hbefore).trans (hf a hbehind)

/-- A part of rendering at a place is one wherever this is what the place is like. -/
theorem weaken {x : Asking m α} (hx : ev.Proceeds base there x)
    (h : ∀ stack, here stack → there stack) : ev.Proceeds base here x := by
  intro flight events a flight' hr
  have hleg := hx hr
  exact ⟨hleg.stack_eq, hleg.steps_eq, hleg.fair, fun hfair hhere =>
    hleg.sound hfair (h _ hhere)⟩

end Proceeds

/-! ### Rendering is made of legs -/

section Parts

variable {render : List Question → List Char → Asking m Rendered} {levels depth : Nat}
  {enclosing : List Question}

/-- All that an attempt may do. -/
theorem attemptAsking_cases {r : Resolver m} {expression : String} {flight flight' : Flight}
    {events : List (Event m)} {outcome : Attempt}
    (h : ((attemptAsking render depth enclosing r expression).run flight).Runs events
      (outcome, flight')) :
    (identity r.id expression ∈ flight.stack ∧
      events = [.refused .cycle ⟨r, expression, depth, enclosing, flight⟩] ∧ flight' = flight) ∨
    (identity r.id expression ∉ flight.stack ∧ maxSteps ≤ flight.steps ∧
      events = [.refused .exhausted ⟨r, expression, depth, enclosing, flight⟩] ∧
      flight' = { flight with isExhausted := true }) ∨
    identity r.id expression ∉ flight.stack ∧ flight.steps < maxSteps ∧
      ∃ inside, events = .asked ⟨r, expression, depth, enclosing, flight⟩ :: inside ∧
        ((inside = [] ∧ flight' = { flight with steps := flight.steps + 1 }) ∨
          ∃ answer rendered after,
            ((render (⟨r.id, expression⟩ :: enclosing) answer).run
              ⟨identity r.id expression :: flight.stack, flight.steps + 1,
                flight.isExhausted⟩).Runs inside (rendered, after) ∧
            flight' = { after with stack := after.stack.tail }) := by
  change (if identity r.id expression ∈ flight.stack then _ else
    if maxSteps ≤ flight.steps then _ else _ : Dialogue m _).Runs _ _ at h
  by_cases hcycle : identity r.id expression ∈ flight.stack
  · left
    rw [if_pos hcycle] at h
    cases h with
    | refuse h =>
      cases h
      exact ⟨hcycle, rfl, rfl⟩
  right
  by_cases hsteps : maxSteps ≤ flight.steps
  · left
    rw [if_neg hcycle, if_pos hsteps] at h
    cases h with
    | refuse h =>
      cases h
      exact ⟨hcycle, hsteps, rfl, rfl⟩
  right
  rw [if_neg hcycle, if_neg hsteps] at h
  refine ⟨hcycle, Nat.lt_of_not_le hsteps, ?_⟩
  cases h with
  | ask answer h =>
    refine ⟨_, rfl, ?_⟩
    rcases answer with e | (_ | answer)
    · cases h
      exact .inl ⟨rfl, rfl⟩
    · cases h
      exact .inl ⟨rfl, rfl⟩
    · obtain ⟨before, ⟨rendered, after⟩, behind, hbefore, hbehind, rfl⟩ := h.of_bind
      cases hbehind
      rw [List.append_nil]
      exact .inr ⟨answer.toList, rendered, after, hbefore, rfl⟩

theorem proceeds_attempt
    (h : ∀ inside text, ev.Proceeds base (ev.Place base levels (depth + 1) inside)
      (render inside text))
    {r : Resolver m} (hr : ev.Knows r) (expression : String) :
    ev.Proceeds base (ev.Place base (levels + 1) depth enclosing)
      (attemptAsking render depth enclosing r expression) := by
  intro flight events outcome flight' hrun
  rcases attemptAsking_cases hrun with ⟨hcycle, rfl, rfl⟩ | ⟨hfree, hsteps, rfl, rfl⟩ |
    ⟨hfree, hsteps, inside, rfl, hrest⟩
  · refine ⟨rfl, rfl, id, fun hfair hhere e he => ?_⟩
    cases List.mem_singleton.1 he
    exact ⟨hhere.mono (Nat.le_add_left 1 levels), hr, hfair, nofun, fun _ => hcycle, fun _ => rfl⟩
  · refine ⟨rfl, rfl, fun hfair => ⟨hfair.steps_le, fun _ => hsteps⟩, fun hfair hhere e he => ?_⟩
    cases List.mem_singleton.1 he
    exact ⟨hhere.mono (Nat.le_add_left 1 levels), hr, hfair, nofun, nofun, (absurd · hfree)⟩
  -- the rendering of an answer is a leg from where the evaluation is under way
  have hleg : ev.Leg base (ev.Place base levels (depth + 1) (⟨r.id, expression⟩ :: enclosing))
      ⟨identity r.id expression :: flight.stack, flight.steps + 1, flight.isExhausted⟩ inside
      ⟨identity r.id expression :: flight'.stack, flight'.steps, flight'.isExhausted⟩ := by
    rcases hrest with ⟨rfl, rfl⟩ | ⟨answer, rendered, after, hanswer, rfl⟩
    · exact .refl _
    · have hleg := h _ _ hanswer
      have hstack : after.stack = identity r.id expression :: after.stack.tail := by
        rw [hleg.stack_eq]
        rfl
      rw [← hstack]
      exact hleg
  have hasked : flight.Fair → (⟨identity r.id expression :: flight.stack, flight.steps + 1,
      flight.isExhausted⟩ : Flight).Fair :=
    fun hfair => ⟨hsteps, fun hex => absurd (hfair.le_steps hex) (Nat.not_le_of_lt hsteps)⟩
  refine ⟨(List.cons.inj hleg.stack_eq).2, ?_, fun hfair => ?_, fun hfair hhere e he => ?_⟩
  · have hcounted : flight'.steps = flight.steps + 1 + inside.countP Event.isAsked := hleg.steps_eq
    rw [List.countP_cons_of_pos rfl, hcounted]
    omega
  · have hafter := hleg.fair (hasked hfair)
    exact ⟨hafter.steps_le, hafter.le_steps⟩
  · rcases List.mem_cons.1 he with rfl | he
    · exact ⟨hhere.mono (Nat.le_add_left 1 levels), hr, hfair, fun _ => hsteps, nofun,
        (absurd · hfree)⟩
    · exact hleg.sound (hasked hfair) (hhere.enter hr hfree) e he

theorem proceeds_attemptChain
    (h : ∀ inside text, ev.Proceeds base (ev.Place base levels (depth + 1) inside)
      (render inside text))
    {chain : List (Resolver m)} (hchain : ∀ r ∈ chain, ev.Knows r) (expression : String) :
    ev.Proceeds base (ev.Place base (levels + 1) depth enclosing)
      (attemptChainAsking render depth enclosing expression chain) := by
  induction chain with
  | nil => exact .pure _
  | cons r rest ih =>
    have hr := hchain r List.mem_cons_self
    refine .bind (proceeds_attempt h hr expression) fun outcome => ?_
    cases outcome with
    | found answer => exact .pure _
    | miss => exact ih fun s hs => hchain s (List.mem_cons_of_mem _ hs)
    | cycle => exact .pure _
    | exhausted => exact .pure _

theorem proceeds_expand
    (h : ∀ inside text, ev.Proceeds base (ev.Place base levels (depth + 1) inside)
      (render inside text)) (body : List Char) :
    ev.Proceeds base (ev.Place base (levels + 1) depth enclosing)
      (ev.expandAsking render depth enclosing body) := by
  refine .bind .get fun flight => ?_
  split
  · exact .pure _
  · refine .bind ((h enclosing body).weaken fun _ => Place.deepen) fun inner => ?_
    split
    · exact .pure _
    · cases hnamed : ev.named? inner.text with
      | none => exact proceeds_attemptChain h (fun r hr => .inr hr) _
      | some named =>
        refine .bind (proceeds_attempt h (knows_of_named? hnamed) named.2) fun outcome => ?_
        cases outcome <;> exact .pure _

end Parts

theorem proceeds_renderSegments (mask : Bool) {expand : List Char → Asking m (Option Rendered)}
    (h : ∀ body, ev.Proceeds base here (expand body)) (segments : List Segment) :
    ev.Proceeds base here (renderSegments mask expand segments) :=
  @renderSegments_rel _ _ _ _ (fun _ x (_ : Asking m _) => ev.Proceeds base here x)
    (fun _ => .pure) (fun _ _ _ _ _ _ => .bind) mask expand expand h segments

theorem proceeds_render (ev : Evaluator m) (base : List String) (mask : Bool) (levels depth : Nat)
    (enclosing : List Question) (text : List Char) :
    ev.Proceeds base (ev.Place base levels depth enclosing)
      (ev.renderAsking mask levels depth enclosing text) := by
  induction levels generalizing depth enclosing text with
  | zero => exact proceeds_renderSegments mask (fun _ => .pure _) _
  | succ levels ih => exact proceeds_renderSegments mask (proceeds_expand (ih (depth + 1))) _

/-- On every branch of rendering the requests are sound, and as many resolvers are asked as there
may be steps at most. -/
theorem sound_of_runs {ev : Evaluator m} {mask : Bool} {stack : List String} {value : String}
    {events : List (Event m)} {out : Rendered}
    (h : (ev.dialogue mask stack value).Runs events out) :
    events.countP Event.isAsked ≤ maxSteps ∧ ∀ e ∈ events, ev.Sound stack e := by
  unfold dialogue at h
  rw [StateT.run'_eq, ← bind_pure_comp] at h
  obtain ⟨before, ⟨a, flight⟩, behind, hbefore, hbehind, rfl⟩ := h.of_bind
  cases hbehind
  rw [List.append_nil]
  have hleg := proceeds_render ev stack mask maxDepth 0 [] value.toList hbefore
  have hfair := Flight.fair_start stack
  have hsteps : flight.steps = 0 + before.countP Event.isAsked := hleg.steps_eq
  have hbound := (hleg.fair hfair).steps_le
  exact ⟨by omega, hleg.sound hfair (.start ev stack)⟩

/-! ### Rendering in a world -/

section Worlds

variable [Monad m]

/-- Whether a computation leaves the evaluations under way as it finds them: putting them back
afterwards changes nothing. -/
def KeepsStack (x : StateT Flight m α) : Prop :=
  ∀ flight, (fun p => (p.1, { p.2 with stack := flight.stack })) <$> x.run flight = x.run flight

variable [LawfulMonad m] {scope : Scope}

theorem Proceeds.keepsStack {x : Asking m α} {y : StateT Flight m α}
    (hx : ev.Proceeds base here x) (h : Tells scope x y) : KeepsStack y := by
  intro flight
  rw [← h flight, ← Dialogue.conduct_map, Dialogue.map_eq_self]
  rintro events ⟨a, flight'⟩ hr
  rw [← (hx hr).stack_eq]

/-- **Rendering stays within its bounds.** It is a dialogue with the resolvers. Whatever they
answer, they are asked 1024 times at most, less than 32 levels deep, not once the steps are used up,
and not for an evaluation that is under way. The evaluations under way are those of the start and
those that were begun since, which are all different from one another and from those of the start,
and at most 32. Rendering ends if asking does, and every part of it leaves the evaluations under way
as it finds them. -/
theorem render_bounded (ev : Evaluator m) (mask : Bool) (scope : Scope) (stack : List String)
    (value : String) :
    (ev.dialogue mask stack value).conduct scope = ev.render mask scope stack value ∧
    (∀ events out, (ev.dialogue mask stack value).Runs events out →
      events.countP Event.isAsked ≤ 1024 ∧
      ∀ request, .asked request ∈ events →
        request.depth < 32 ∧
        request.flight.steps < 1024 ∧ request.flight.isExhausted = false ∧
        request.question.identity ∉ request.flight.stack ∧
        request.flight.stack = request.enclosing.map Question.identity ++ stack ∧
        ((request.question :: request.enclosing).map Question.identity).Nodup ∧
        (∀ q ∈ request.question :: request.enclosing, q.identity ∉ stack) ∧
        (request.question :: request.enclosing).length ≤ 32) ∧
    (∀ Ends : (γ : Type) → m γ → Prop, IsComposable Ends →
      (∀ r, ev.Knows r → ∀ expression, Ends _ (r.evaluate expression scope)) →
      Ends _ (ev.render mask scope stack value)) ∧
    ∀ levels,
      (∀ text, KeepsStack (ev.renderWithin mask scope levels text)) ∧
      (∀ body, KeepsStack (ev.expand (ev.renderWithin mask scope levels) scope body)) ∧
      ∀ r, ev.Knows r → ∀ expression,
        KeepsStack (attempt (ev.renderWithin mask scope levels) scope r expression) := by
  have hconduct := conduct_dialogue ev mask scope stack value
  refine ⟨hconduct, fun events out hr => ?_, fun Ends hends h => ?_, fun levels => ?_⟩
  · obtain ⟨hcount, hsound⟩ := sound_of_runs hr
    refine ⟨hcount, fun request hmem => ?_⟩
    have h := hsound _ hmem
    have hsteps : request.flight.steps < 1024 := h.steps_lt rfl
    have hfree : request.question.identity ∉ request.flight.stack :=
      fun hcycle => nomatch h.isCycle_iff.2 hcycle
    have hstack : request.flight.stack = request.enclosing.map Question.identity ++ stack :=
      h.place.stack_eq
    have hex : request.flight.isExhausted = false :=
      Bool.eq_false_iff.2 fun hex => absurd (h.fair.le_steps hex) (Nat.not_le_of_lt hsteps)
    -- what is begun by the request is at a place one level deeper
    have hplace := h.place.enter h.known hfree
    refine ⟨?_, hsteps, hex, hfree, hstack, hplace.nodup, fun q hq => ?_, ?_⟩
    · exact Nat.lt_of_lt_of_le (Nat.lt_add_of_pos_left Nat.one_pos) h.place.depth_le
    · exact hplace.fresh _ (List.mem_map_of_mem hq)
    · exact Nat.le_trans hplace.length_le (Nat.le_trans (Nat.le_add_left _ _) hplace.depth_le)
  · rw [← hconduct]
    refine Dialogue.conduct_ends hends fun events out hr request hmem => ?_
    exact h _ ((sound_of_runs hr).2 _ hmem).known _
  · have htells := tells_renderWithin ev mask scope levels 1
    have hproceeds := proceeds_render ev [] mask levels 1
    refine ⟨fun text => ?_, fun body => ?_, fun r hr expression => ?_⟩
    · exact (hproceeds [] text).keepsStack (htells [] text)
    · exact (proceeds_expand hproceeds body).keepsStack (tells_expand ev htells 0 [] body)
    · exact (proceeds_attempt hproceeds hr expression).keepsStack
        (tells_attempt htells 0 [] r expression)

end Worlds

/-- A resolver that answers with more questions, always new ones, in a world that counts how often
it has. -/
def forking : Resolver (StateT Nat Option) where
  id := "fork"
  evaluate expression _ := do
    let n ← get
    set (n + 1)
    let next := "$\x7bfork:" ++ expression ++ "." ++ toString n ++ "\x7d"
    return .ok (some (next ++ next ++ "$\x7b" ++ next ++ "\x7d"))

/-- Even so rendering ends, with the resolver asked no more than 1024 times. -/
theorem render_bounded_forking :
    ((ofResolvers [forking]).dialogue true [] "$\x7bfork:x\x7d").conduct .empty =
      (ofResolvers [forking]).render true .empty [] "$\x7bfork:x\x7d" ∧
    (∀ events out, ((ofResolvers [forking]).dialogue true [] "$\x7bfork:x\x7d").Runs events out →
      events.countP Event.isAsked ≤ 1024) ∧
    ∀ counted, (((ofResolvers [forking]).render true .empty [] "$\x7bfork:x\x7d").run
      counted).isSome = true := by
  obtain ⟨hconduct, hruns, hends, -⟩ :=
    render_bounded (ofResolvers [forking]) true .empty [] "$\x7bfork:x\x7d"
  refine ⟨hconduct, fun events out h => (hruns events out h).1, ?_⟩
  refine hends (fun _ x => ∀ counted, (x.run counted).isSome = true) ⟨fun _ _ => rfl, ?_⟩ ?_
  · intro _ _ x f hx hf counted
    obtain ⟨⟨a, n⟩, ha⟩ := Option.isSome_iff_exists.1 (hx counted)
    rw [StateT.run_bind, ha]
    exact hf a n
  · intro r hr expression counted
    cases List.mem_singleton.1 (knows_ofResolvers hr)
    rfl

end Evaluator

end LayeredConfig
