import LayeredConfig.Proofs.Evaluator.Following
import LayeredConfig.Proofs.Evaluator.Reference

/-! # Evaluation is substitution

Within the bounds on levels and evaluations the evaluator renders a text to what it stands for, and
asks exactly the questions of the derivation (`render_eq_of_renders`): no evaluation is refused for
being under way already.

That takes an argument. An evaluation that is under way has been answered, and what its answer
stands for takes some number of questions. What is rendered inside of it is a part of that
derivation, so it takes no more (`Guarded`); to ask the same question again would take one more than
the answer takes, and the answer has one derivation only. -/

namespace LayeredConfig

/-- A resolver that writes down what it is asked. -/
def Resolver.logged (r : Resolver Id) : Resolver (StateM (List Question)) :=
  { r with
    evaluate := fun expression scope => do
      modify fun log => log ++ [⟨r.id, expression⟩]
      return r.evaluate expression scope }

/-- Rendering, with the questions written down. -/
abbrev Logging := StateT Flight (StateM (List Question))

@[simp] theorem Resolver.id_logged (r : Resolver Id) : r.logged.id = r.id := rfl

namespace Evaluator

/-- The evaluator whose questions are written down. -/
def logged (ev : Evaluator Id) : Evaluator (StateM (List Question)) := ev.map Resolver.logged

/-- Answers placeholders that may still be nested `levels` deep. -/
def expandWithin {m : Type → Type} [Monad m] (ev : Evaluator m) (mask : Bool) (scope : Scope) :
    Nat → List Char → StateT Flight m (Option Rendered)
  | 0 => fun _ => return none
  | levels + 1 => ev.expand (ev.renderWithin mask scope levels) scope

theorem renderWithin_eq {m : Type → Type} [Monad m] (ev : Evaluator m) (mask : Bool)
    (scope : Scope) (levels : Nat) (text : List Char) :
    ev.renderWithin mask scope levels text =
      renderSegments mask (ev.expandWithin mask scope levels) (Segment.split text) := by
  cases levels <;> rfl

theorem attemptChain_singleton {m : Type → Type} [Monad m]
    (render : List Char → StateT Flight m Rendered) (scope : Scope) (expression : String)
    (r : Resolver m) :
    attemptChain render scope expression [r] = (do
      match ← attempt render scope r expression with
      | .found answer => return some answer
      | _ => return none) := by
  unfold attemptChain
  refine congrArg _ (funext fun attempt => ?_)
  cases attempt <;> rfl

/-! ### Questions that are asked -/

variable {α β : Type}

/-- Whether a computation gives a result, asks some questions, and leaves the stack as it was. -/
def Yields (x : Logging α) (flight : Flight) (a : α)
    (asked : List Question) : Prop :=
  ∀ log, (x.run flight).run log =
    pure ((a, { flight with steps := flight.steps + asked.length }), log ++ asked)

theorem Yields.pure (flight : Flight) (a : α) : Yields (Pure.pure a) flight a [] := by
  intro log
  rw [List.append_nil]
  rfl

theorem Yields.bind {x : Logging α}
    {f : α → Logging β} {flight : Flight} {a : α} {b : β}
    {as bs : List Question} (hx : Yields x flight a as)
    (hf : Yields (f a) { flight with steps := flight.steps + as.length } b bs) :
    Yields (x >>= f) flight b (as ++ bs) := by
  intro log
  rw [StateT.run_bind, StateT.run_bind, hx log, pure_bind, hf, List.length_append, Nat.add_assoc,
    List.append_assoc]

/-- The rest asks nothing. -/
theorem Yields.bind_quiet {x : Logging α}
    {f : α → Logging β} {flight : Flight} {a : α} {b : β}
    {as : List Question} (hx : Yields x flight a as)
    (hf : Yields (f a) { flight with steps := flight.steps + as.length } b []) :
    Yields (x >>= f) flight b as := by
  have h := hx.bind hf
  rwa [List.append_nil] at h

theorem Yields.get_bind {f : Flight → Logging β} {flight : Flight}
    {b : β} {bs : List Question} (h : Yields (f flight) flight b bs) :
    Yields (get >>= f) flight b bs := h

variable {scope : Scope} {expression : String}

/-- Asking a resolver takes a step and is written down. -/
theorem yields_ask {r : Resolver Id} {flight : Flight} {b : β} {bs : List Question}
    {f : Result (Option String) → Logging β}
    (h : Yields (f (r.evaluate expression scope).run) { flight with steps := flight.steps + 1 }
      b bs) :
    Yields (do
      set { flight with steps := flight.steps + 1 }
      let answer ← (r.logged.evaluate expression scope : StateM (List Question) _)
      f answer) flight b (⟨r.id, expression⟩ :: bs) := by
  intro log
  have hf := h (log ++ [⟨r.id, expression⟩])
  rw [Nat.add_assoc, Nat.add_comm 1, List.append_assoc] at hf
  exact hf

/-- What is done while one more evaluation is under way. -/
theorem yields_under {x : Logging α} {flight : Flight} {i : String}
    {a : α} {as : List Question} (h : Yields x { flight with stack := i :: flight.stack } a as)
    (f : α → β) :
    Yields (do
      modify fun flight => { flight with stack := i :: flight.stack }
      let a ← x
      modify fun flight => { flight with stack := flight.stack.tail }
      return f a) flight (f a) as := by
  intro log
  rw [StateT.run_bind, StateT.run_modify, pure_bind, StateT.run_bind, StateT.run_bind, h log]
  rfl

variable {flight : Flight} {render : List Char → Logging Rendered}

theorem yields_attempt_miss {r : Resolver Id} (hstack : identity r.id expression ∉ flight.stack)
    (hsteps : flight.steps < maxSteps) (h : r.answer? expression scope = none) :
    Yields (attempt render scope r.logged expression) flight .miss [⟨r.id, expression⟩] := by
  unfold attempt
  refine .get_bind ?_
  dsimp only
  rw [Resolver.id_logged, if_neg hstack, if_neg (Nat.not_le.2 hsteps)]
  refine yields_ask ?_
  unfold Resolver.answer? at h
  cases hr : (r.evaluate expression scope).run with
  | error e => exact .pure _ _
  | ok answer =>
    rw [hr] at h
    cases answer with
    | none => exact .pure _ _
    | some answer => cases h

theorem yields_attempt_found {r : Resolver Id} {answer : String} {result : Rendered}
    {within : List Question} (hstack : identity r.id expression ∉ flight.stack)
    (hsteps : flight.steps < maxSteps) (h : r.answer? expression scope = some answer)
    (hanswer : Yields (render answer.toList)
      { flight with stack := identity r.id expression :: flight.stack, steps := flight.steps + 1 }
      result within) :
    Yields (attempt render scope r.logged expression) flight (.found result)
      (⟨r.id, expression⟩ :: within) := by
  unfold attempt
  refine .get_bind ?_
  dsimp only
  rw [Resolver.id_logged, if_neg hstack, if_neg (Nat.not_le.2 hsteps)]
  refine yields_ask ?_
  unfold Resolver.answer? at h
  cases hr : (r.evaluate expression scope).run with
  | error e =>
    rw [hr] at h
    cases h
  | ok found =>
    rw [hr] at h
    cases h
    exact yields_under hanswer Attempt.found

/-- Resolvers that are asked in turn, none of which answers. -/
theorem yields_attemptChain_none {resolvers : List (Resolver Id)} {questions : List Question}
    (hasked : Resolver.inquire scope expression resolvers = (questions, none))
    (hfree : ∀ q ∈ questions, identity q.id q.expression ∉ flight.stack)
    (hsteps : flight.steps + questions.length ≤ maxSteps) :
    Yields (attemptChain render scope expression (resolvers.map Resolver.logged)) flight none
      questions := by
  induction resolvers generalizing flight questions with
  | nil =>
    cases hasked
    exact .pure _ _
  | cons r rest ih =>
    unfold Resolver.inquire at hasked
    cases hr : r.answer? expression scope with
    | some answer =>
      rw [hr] at hasked
      cases hasked
    | none =>
      rw [hr] at hasked
      obtain ⟨hq, hnone⟩ := Prod.mk.inj hasked
      subst hq
      rw [List.length_cons] at hsteps
      have hmiss : Yields (attempt render scope r.logged expression) flight .miss
          [⟨r.id, expression⟩] :=
        yields_attempt_miss (hfree ⟨r.id, expression⟩ List.mem_cons_self) (by omega) hr
      refine hmiss.bind (ih (Prod.ext rfl hnone) (fun q hq => ?_) ?_)
      · exact hfree q (List.mem_cons_of_mem _ hq)
      · show flight.steps + 1 + _ ≤ _
        omega

/-- Resolvers that are asked in turn until one answers. -/
theorem yields_attemptChain_some {resolvers : List (Resolver Id)} {questions within : List Question}
    {answer : String} {result : Rendered}
    (hasked : Resolver.inquire scope expression resolvers = (questions, some answer))
    (hfree : ∀ q ∈ questions, identity q.id q.expression ∉ flight.stack)
    (hsteps : flight.steps + questions.length ≤ maxSteps)
    (hanswer : ∀ r ∈ resolvers, r.answer? expression scope = some answer →
      Yields (render answer.toList) ⟨identity r.id expression :: flight.stack,
        flight.steps + questions.length, flight.isExhausted⟩ result within) :
    Yields (attemptChain render scope expression (resolvers.map Resolver.logged)) flight
      (some result) (questions ++ within) := by
  induction resolvers generalizing flight questions with
  | nil => cases hasked
  | cons r rest ih =>
    unfold Resolver.inquire at hasked
    cases hr : r.answer? expression scope with
    | some found =>
      rw [hr] at hasked
      cases hasked
      have hfound := yields_attempt_found (hfree ⟨r.id, expression⟩ List.mem_cons_self) hsteps hr
        (hanswer r List.mem_cons_self hr)
      exact hfound.bind_quiet (.pure _ _)
    | none =>
      rw [hr] at hasked
      obtain ⟨hq, hsome⟩ := Prod.mk.inj hasked
      subst hq
      rw [List.length_cons] at hsteps
      have hmiss : Yields (attempt render scope r.logged expression) flight .miss
          [⟨r.id, expression⟩] :=
        yields_attempt_miss (hfree ⟨r.id, expression⟩ List.mem_cons_self) (by omega) hr
      show Yields _ _ _ ([⟨r.id, expression⟩] ++ (_ ++ within))
      refine hmiss.bind (ih (Prod.ext rfl hsome) (fun q hq => ?_) ?_ fun s hs ha => ?_)
      · exact hfree q (List.mem_cons_of_mem _ hq)
      · show flight.steps + 1 + _ ≤ _
        omega
      · have hs' := hanswer s (List.mem_cons_of_mem _ hs) ha
        rw [List.length_cons, Nat.add_comm _ 1, ← Nat.add_assoc] at hs'
        exact hs'

/-! ### Placeholders -/

theorem named?_logged (ev : Evaluator Id) (text : List Char) :
    ev.logged.named? text = (ev.named? text).map fun p => (p.1.logged, p.2) := by
  unfold named?
  cases Text.cutAt? (· = ':') text with
  | none => rfl
  | some cut =>
    show ((ev.byId.filterMap _).get? _).bind _ = ((ev.byId.get? _).bind _).map _
    rw [KeyMap.get?_filterMap]
    cases ev.byId.get? (String.ofList cut.1) <;> rfl

variable {ev : Evaluator Id} {mask : Bool} {body : List Char} {inner : Rendered}
  {inside : List Question}

theorem yields_expand_unready (hex : flight.isExhausted = false)
    (hbody : Yields (render body) flight inner inside) (hinner : inner.isComplete = false) :
    Yields (ev.logged.expand render scope body) flight none inside := by
  unfold expand
  refine .get_bind ?_
  rw [if_neg (by rw [hex]; exact Bool.false_ne_true)]
  refine hbody.bind_quiet ?_
  rw [hinner]
  exact .pure _ _

/-- The answer to a placeholder is that of the resolvers whose turn it is. -/
theorem yields_expand {resolvers : List (Resolver Id)} {out : Option Rendered}
    {asked : List Question} (hex : flight.isExhausted = false)
    (hbody : Yields (render body) flight inner inside) (hinner : inner.isComplete = true)
    (turn : Turn ev inner.text resolvers expression)
    (hasked : Yields (attemptChain render scope expression (resolvers.map Resolver.logged))
      { flight with steps := flight.steps + inside.length } out asked) :
    Yields (ev.logged.expand render scope body) flight out (inside ++ asked) := by
  unfold expand
  refine .get_bind ?_
  rw [if_neg (by rw [hex]; exact Bool.false_ne_true)]
  refine hbody.bind ?_
  rw [hinner, named?_logged]
  rcases turn.named?_cases with ⟨r, hn, rfl⟩ | ⟨hn, rfl, rfl⟩
  · rw [hn]
    rw [List.map_singleton, attemptChain_singleton] at hasked
    exact hasked
  · rw [hn]
    exact hasked

/-! ### Evaluations under way -/

/-- What is under way has been answered, and what the answers stand for takes at least `n`
questions. -/
def Guarded (ev : Evaluator Id) (scope : Scope) (mask : Bool) (stack : List String) (n : Nat) :
    Prop :=
  ∀ i ∈ stack, ∃ r expression answer, i = identity r.id expression ∧
    ev.byId.get? r.id = some r ∧ r.answer? expression scope = some answer ∧
    ∃ out asked levels, Renders ev scope mask (Segment.split answer.toList) out asked levels ∧
      n ≤ asked.length

theorem identity_inj {id id' expression expression' : String} (hid : ':' ∉ id.toList)
    (hid' : ':' ∉ id'.toList) (h : identity id expression = identity id' expression') :
    id = id' ∧ expression = expression' := by
  have hcut : ∀ {i e : String}, ':' ∉ i.toList →
      Text.cutAt? (· = ':') (identity i e).toList = some (i.toList, e.toList) := by
    intro i e hi
    have htext : (identity i e).toList = i.toList ++ ':' :: e.toList := by
      simp [identity, String.toList_append]
    exact Text.cutAt?_char_eq_some_iff.2 ⟨hi, htext⟩
  have hpair := (hcut hid).symm.trans ((congrArg _ (congrArg String.toList h)).trans (hcut hid'))
  obtain ⟨hi, he⟩ := Prod.mk.inj (Option.some.inj hpair)
  exact ⟨String.toList_injective hi, String.toList_injective he⟩

namespace Guarded

variable {stack : List String} {n : Nat}

theorem nil : Guarded ev scope mask [] n := fun _ h => nomatch h

theorem mono {k : Nat} (h : Guarded ev scope mask stack n) (hk : k ≤ n) :
    Guarded ev scope mask stack k := by
  intro i hi
  obtain ⟨r, e, answer, heq, hr, ha, out, asked, levels, hd, hn⟩ := h i hi
  exact ⟨r, e, answer, heq, hr, ha, out, asked, levels, hd, Nat.le_trans hk hn⟩

/-- A question under way is of a resolver that answers it. -/
theorem answers (h : Guarded ev scope mask stack n) (hev : ev.KnowsIds) {r : Resolver Id}
    (hr : ev.byId.get? r.id = some r) (hi : identity r.id expression ∈ stack) :
    ∃ answer out asked levels, r.answer? expression scope = some answer ∧
      Renders ev scope mask (Segment.split answer.toList) out asked levels ∧ n ≤ asked.length := by
  obtain ⟨s, e, answer, heq, hs, ha, out, asked, levels, hd, hn⟩ := h _ hi
  obtain ⟨hid, rfl⟩ := identity_inj (hev.no_colon _ _ hr) (hev.no_colon _ _ hs) heq
  have hsame : r = s := Option.some.inj (hr.symm.trans (hid ▸ hs))
  subst hsame
  exact ⟨answer, out, asked, levels, ha, hd, hn⟩

/-- A question whose answer takes fewer questions is not under way. -/
theorem free (h : Guarded ev scope mask stack n) (hev : ev.KnowsIds) {r : Resolver Id}
    (hr : ev.byId.get? r.id = some r)
    (hlt : ∀ answer out asked levels, r.answer? expression scope = some answer →
      Renders ev scope mask (Segment.split answer.toList) out asked levels → asked.length < n) :
    identity r.id expression ∉ stack := by
  intro hi
  obtain ⟨answer, out, asked, levels, ha, hd, hn⟩ := h.answers hev hr hi
  exact absurd hn (Nat.not_le.2 (hlt answer out asked levels ha hd))

/-- One more question comes under way, with what its answer stands for. -/
theorem push {r : Resolver Id} {answer : String} {out : Rendered} {asked : List Question}
    {levels : Nat} (h : Guarded ev scope mask stack asked.length)
    (hr : ev.byId.get? r.id = some r) (ha : r.answer? expression scope = some answer)
    (hd : Renders ev scope mask (Segment.split answer.toList) out asked levels) :
    Guarded ev scope mask (identity r.id expression :: stack) asked.length := by
  intro i hi
  rcases List.mem_cons.1 hi with rfl | hi
  · exact ⟨r, expression, answer, rfl, hr, ha, out, asked, levels, hd, Nat.le_refl _⟩
  · exact h i hi

end Guarded

theorem Turn.get?_of_mem (hev : ev.KnowsIds) {text : List Char} {resolvers : List (Resolver Id)}
    (turn : Turn ev text resolvers expression) {r : Resolver Id} (h : r ∈ resolvers) :
    ev.byId.get? r.id = some r := by
  cases turn with
  | named hid hr =>
    cases List.mem_singleton.1 h
    rw [hev.id_of_get? _ _ hr]
    exact hr
  | chain => exact hev.get?_of_chain r h

/-! ### The evaluator -/

theorem yields_expression {expand : List Char → Logging (Option Rendered)}
    {rest : List Segment} {answer : Option Rendered} {out : Rendered} {as bs : List Question}
    (hanswer : Yields (expand body) flight answer as)
    (hrest : Yields (renderSegments mask expand rest)
      { flight with steps := flight.steps + as.length } out bs) :
    Yields (renderSegments mask expand (.expression body :: rest)) flight
      ((answer.getD ⟨standIn mask body, false⟩).append out) (as ++ bs) :=
  hanswer.bind (hrest.bind_quiet (.pure _ _))

/-- Within the bounds the evaluator renders segments to what they stand for. -/
theorem Renders.yields (hev : ev.KnowsIds) {segments : List Segment} {out : Rendered}
    {asked : List Question} {levels : Nat} (h : Renders ev scope mask segments out asked levels)
    {bound : Nat} (hlevels : levels ≤ bound) {flight : Flight}
    (hguard : Guarded ev scope mask flight.stack asked.length)
    (hsteps : flight.steps + asked.length ≤ maxSteps) (hex : flight.isExhausted = false) :
    Yields (renderSegments mask (ev.logged.expandWithin mask scope bound) segments) flight out
      asked := by
  induction h generalizing bound flight with
  | done => exact .pure _ _
  | literal _ ih => exact (ih hlevels hguard hsteps hex).bind_quiet (.pure _ _)
  | escaped _ ih => exact (ih hlevels hguard hsteps hex).bind_quiet (.pure _ _)
  | @unready body rest inner out inside behind deep levels _ hinner _ ihbody ihrest =>
    obtain ⟨bound, rfl⟩ : ∃ b, bound = b + 1 := ⟨bound - 1, by omega⟩
    rw [List.length_append] at hguard hsteps
    have hinside : Yields (ev.logged.renderWithin mask scope bound body) flight inner inside := by
      rw [renderWithin_eq]
      exact ihbody (by omega) (hguard.mono (by omega)) (by omega) hex
    have hexpand : Yields (ev.logged.expandWithin mask scope (bound + 1) body) flight none inside :=
      yields_expand_unready hex hinside hinner
    refine yields_expression hexpand (ihrest (by omega) (hguard.mono (by omega)) ?_ hex)
    show flight.steps + inside.length + behind.length ≤ maxSteps
    omega
  | @unanswered body rest inner out inside questions behind deep levels resolvers expression _
      hinner turn hasked _ ihbody ihrest =>
    obtain ⟨bound, rfl⟩ : ∃ b, bound = b + 1 := ⟨bound - 1, by omega⟩
    rw [List.length_append, List.length_append] at hguard hsteps
    have hinside : Yields (ev.logged.renderWithin mask scope bound body) flight inner inside := by
      rw [renderWithin_eq]
      exact ihbody (by omega) (hguard.mono (by omega)) (by omega) hex
    -- what is under way has been answered, and these questions are not
    have hfree : ∀ q ∈ questions, identity q.id q.expression ∉ flight.stack := by
      intro q hq
      obtain ⟨r, hr, rfl, hmiss⟩ := Resolver.mem_inquire hasked hq
      refine hguard.free hev (turn.get?_of_mem hev hr) fun answer _ _ _ ha => ?_
      rcases hmiss with hmiss | hmiss <;> cases hmiss.symm.trans ha
    have hexpand : Yields (ev.logged.expandWithin mask scope (bound + 1) body) flight none
        (inside ++ questions) := by
      refine yields_expand hex hinside hinner turn (yields_attemptChain_none hasked hfree ?_)
      show flight.steps + inside.length + questions.length ≤ maxSteps
      omega
    rw [← List.append_assoc]
    refine yields_expression hexpand (ihrest (by omega) (hguard.mono (by omega)) ?_ hex)
    show flight.steps + (inside ++ questions).length + behind.length ≤ maxSteps
    rw [List.length_append]
    omega
  | @answered body rest inner result out inside questions within behind deep deeper levels resolvers
      expression answer _ hinner turn hasked hanswer _ ihbody ihanswer ihrest =>
    obtain ⟨bound, rfl⟩ : ∃ b, bound = b + 1 := ⟨bound - 1, by omega⟩
    rw [List.length_append, List.length_append, List.length_append] at hguard hsteps
    have hinside : Yields (ev.logged.renderWithin mask scope bound body) flight inner inside := by
      rw [renderWithin_eq]
      exact ihbody (by omega) (hguard.mono (by omega)) (by omega) hex
    have hpos := Resolver.length_pos_of_inquire hasked
    -- the answer takes one question less than the rest of the derivation that it stands in
    have hfree : ∀ q ∈ questions, identity q.id q.expression ∉ flight.stack := by
      intro q hq
      obtain ⟨r, hr, rfl, hmiss⟩ := Resolver.mem_inquire hasked hq
      refine hguard.free hev (turn.get?_of_mem hev hr) fun answer' _ asked' _ ha hd => ?_
      rcases hmiss with hmiss | hmiss
      · cases hmiss.symm.trans ha
      · cases hmiss.symm.trans ha
        obtain ⟨-, rfl⟩ := hd.unique hanswer
        omega
    have hwithin : ∀ r ∈ resolvers, r.answer? expression scope = some answer →
        Yields (ev.logged.renderWithin mask scope bound answer.toList)
          ⟨identity r.id expression :: flight.stack,
            flight.steps + inside.length + questions.length, flight.isExhausted⟩ result within := by
      intro r hr ha
      rw [renderWithin_eq]
      refine ihanswer (by omega) ?_ (by show _ + _ + _ + _ ≤ _; omega) hex
      exact (hguard.mono (by omega)).push (turn.get?_of_mem hev hr) ha hanswer
    have hexpand : Yields (ev.logged.expandWithin mask scope (bound + 1) body) flight (some result)
        (inside ++ (questions ++ within)) := by
      refine yields_expand hex hinside hinner turn
        (yields_attemptChain_some hasked hfree ?_ hwithin)
      show flight.steps + inside.length + questions.length ≤ maxSteps
      omega
    rw [← List.append_assoc]
    refine yields_expression hexpand (ihrest (by omega) (hguard.mono (by omega)) ?_ hex)
    show flight.steps + (inside ++ (questions ++ within)).length + behind.length ≤ maxSteps
    rw [List.length_append, List.length_append]
    omega

/-- Writing down the questions does not change what is rendered. -/
theorem follows_logged (ev : Evaluator Id) :
    ev.logged.Follows ⟨fun _ => True, fun _ _ => True, fun _ => trivial, fun _ _ => trivial,
      fun _ _ => trivial⟩ ev := by
  refine follows_map (fun r => ⟨rfl, rfl, rfl, fun expression scope log _ => ?_⟩) ev
  exact ⟨log ++ [⟨r.id, expression⟩], rfl, trivial⟩

/-- **Evaluation is substitution.** A value that stands for something, by a derivation of at most 32
levels and 1024 questions, is rendered to that, and the resolvers are asked the questions of the
derivation, in their order and no others. The derivation looks for resolvers where the evaluator
keeps them: of each id the last one, and those that are asked by default by priority and id. -/
theorem render_eq_of_renders {resolvers : List (Resolver Id)}
    (hids : ∀ r ∈ resolvers, ':' ∉ r.id.toList) {scope : Scope} {mask : Bool} {value : String}
    {out : Rendered} {asked : List Question} {levels : Nat}
    (h : Renders (ofResolvers resolvers) scope mask (Segment.split value.toList) out asked levels)
    (hlevels : levels ≤ 32) (hasked : asked.length ≤ 1024) :
    (ofResolvers resolvers).Registers resolvers ∧
      ((ofResolvers resolvers).render mask scope [] value).run = out ∧
      ((ofResolvers resolvers).logged.render mask scope [] value).run [] = pure (out, asked) := by
  have hlog : ((ofResolvers resolvers).logged.render mask scope [] value).run [] =
      pure (out, asked) := by
    have hyields : Yields ((ofResolvers resolvers).logged.renderWithin mask scope maxDepth
        value.toList) (.start []) out asked := by
      rw [renderWithin_eq]
      refine h.yields (knowsIds_ofResolvers hids) hlevels Guarded.nil ?_ rfl
      show 0 + asked.length ≤ 1024
      omega
    unfold render
    rw [StateT.run'_eq, StateT.run_map, hyields []]
    rfl
  refine ⟨registers_ofResolvers resolvers, ?_, hlog⟩
  obtain ⟨log, hrun, -⟩ := gives_render (follows_logged _) mask scope [] value [] trivial
  exact (congrArg Prod.fst (hrun.symm.trans hlog))

/-- A resolver with an answer that holds a placeholder. -/
def answers : Resolver Id := .table "t" 0 (.ofList [("a", "$\x7bb\x7d"), ("b", "x")])

/-- An escaped opening, a placeholder that is answered through another one, one that names its
resolver, one without an answer, and one with that in its body. -/
def everyKind : String := "\\$\x7b<$\x7ba\x7d$\x7bt:b\x7d$\x7bc\x7d$\x7b-$\x7bc\x7d\x7d>"

theorem renders_letter (mask : Bool) (c : Char) (h : Segment.split [c] = [.literal [c]]) :
    Renders (ofResolvers [answers]) .empty mask (Segment.split [c]) ⟨[c], true⟩ [] 0 :=
  .of_literal h

theorem turn_letter (c : Char) (h : c ≠ ':') :
    Turn (ofResolvers [answers]) [c] [answers] (String.ofList [c]) :=
  .of_no_colon fun hmem => h (List.mem_singleton.1 hmem).symm

theorem renders_answered_through (mask : Bool) :
    Renders (ofResolvers [answers]) .empty mask (Segment.split "$\x7bb\x7d".toList) ⟨['x'], true⟩
      [⟨"t", "b"⟩] 1 := by
  have hsplit : Segment.split "$\x7bb\x7d".toList = [.expression ['b']] := by decide +kernel
  rw [hsplit]
  exact .answered (renders_letter mask 'b' (by decide +kernel)) rfl (turn_letter 'b' (by decide))
    rfl (renders_letter mask 'x' (by decide +kernel)) .done

theorem renders_unanswered {mask : Bool} {rest : List Segment} {out : Rendered}
    {asked : List Question} {levels : Nat}
    (h : Renders (ofResolvers [answers]) .empty mask rest out asked levels) :
    Renders (ofResolvers [answers]) .empty mask (.expression ['c'] :: rest)
      ⟨(if mask then "?\x7bc\x7d".toList else []) ++ out.text, false⟩ (⟨"t", "c"⟩ :: asked)
      (max 1 levels) :=
  .unanswered (renders_letter mask 'c' (by decide +kernel)) rfl (turn_letter 'c' (by decide)) rfl h

theorem renders_everyKind (mask : Bool) :
    Renders (ofResolvers [answers]) .empty mask (Segment.split everyKind.toList)
      ⟨'$' :: '\x7b' :: '<' :: 'x' :: 'x' :: ((if mask then "?\x7bc\x7d".toList else []) ++
        ((if mask then "?\x7b-$\x7bc\x7d\x7d".toList else []) ++ ['>'])), false⟩
      [⟨"t", "a"⟩, ⟨"t", "b"⟩, ⟨"t", "b"⟩, ⟨"t", "c"⟩, ⟨"t", "c"⟩] 2 := by
  have hunready : ∃ inner, inner.isComplete = false ∧ Renders (ofResolvers [answers]) .empty mask
      (Segment.split ['-', '$', '\x7b', 'c', '\x7d']) inner [⟨"t", "c"⟩] 1 := by
    have hsplit : Segment.split ['-', '$', '\x7b', 'c', '\x7d'] =
        [.literal ['-'], .expression ['c']] := by decide +kernel
    rw [hsplit]
    exact ⟨_, rfl, .literal (renders_unanswered .done)⟩
  obtain ⟨inner, hinner, hbody⟩ := hunready
  have hclose : Renders (ofResolvers [answers]) .empty mask [.literal ['>']] ⟨['>'], true⟩ [] 0 :=
    .literal .done
  have hend := renders_unanswered (.unready hbody hinner hclose)
  have hname : Renders (ofResolvers [answers]) .empty mask (Segment.split ['t', ':', 'b'])
      ⟨['t', ':', 'b'], true⟩ [] 0 := .of_literal (by decide +kernel)
  have hturn : Turn (ofResolvers [answers]) (['t'] ++ ':' :: ['b']) [answers]
      (String.ofList ['b']) := .named (by decide) rfl
  have hx : Renders (ofResolvers [answers]) .empty mask (Segment.split "x".toList)
      ⟨['x'], true⟩ [] 0 := renders_letter mask 'x' (by decide +kernel)
  have hnamed := Renders.answered hname rfl hturn rfl hx hend
  have hsplit : Segment.split everyKind.toList =
      [.escaped, .literal ['<'], .expression ['a'], .expression ['t', ':', 'b'], .expression ['c'],
        .expression ['-', '$', '\x7b', 'c', '\x7d'], .literal ['>']] := by decide +kernel
  rw [hsplit]
  exact .escaped (.literal (.answered (renders_letter mask 'a' (by decide +kernel)) rfl
    (turn_letter 'a' (by decide)) rfl (renders_answered_through mask) hnamed))

/-- Of a placeholder without an answer the body stays, behind a question mark, or nothing. -/
theorem render_eq_of_every_kind :
    ((ofResolvers [answers]).Registers [answers] ∧
      ((ofResolvers [answers]).render true .empty [] everyKind).run =
        ⟨"$\x7b<xx?\x7bc\x7d?\x7b-$\x7bc\x7d\x7d>".toList, false⟩ ∧
      ((ofResolvers [answers]).logged.render true .empty [] everyKind).run [] =
        pure (⟨"$\x7b<xx?\x7bc\x7d?\x7b-$\x7bc\x7d\x7d>".toList, false⟩,
          [⟨"t", "a"⟩, ⟨"t", "b"⟩, ⟨"t", "b"⟩, ⟨"t", "c"⟩, ⟨"t", "c"⟩])) ∧
    (ofResolvers [answers]).Registers [answers] ∧
      ((ofResolvers [answers]).render false .empty [] everyKind).run =
        ⟨"$\x7b<xx>".toList, false⟩ ∧
      ((ofResolvers [answers]).logged.render false .empty [] everyKind).run [] =
        pure (⟨"$\x7b<xx>".toList, false⟩,
          [⟨"t", "a"⟩, ⟨"t", "b"⟩, ⟨"t", "b"⟩, ⟨"t", "c"⟩, ⟨"t", "c"⟩]) :=
  ⟨render_eq_of_renders (by decide) (renders_everyKind true) (by decide) (by decide),
    render_eq_of_renders (by decide) (renders_everyKind false) (by decide) (by decide)⟩

end Evaluator

end LayeredConfig
