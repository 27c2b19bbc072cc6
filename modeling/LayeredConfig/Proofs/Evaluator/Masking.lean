import LayeredConfig.Proofs.Evaluator.Bounds
import LayeredConfig.Proofs.Evaluator.Substitution

/-! # Masking shows failures and nothing else

A placeholder without an answer is shown as it stands or dropped. Either way the same resolvers are
asked about the same expressions, and a text is complete in the one way if it is in the other; a
complete text is the same in both.

What stands in for such a placeholder is made a parameter (`renderFilled`), and two renderings that
differ in it are kept in step (`InStep`): they ask alike and leave the flight alike, and what they
come to is equal where it is complete (`Rendered.Agrees`). What is incomplete never gets into an
expression, as a placeholder is given up once its body is. So the characters of an expression come
from the value and from answers, which `InStep` keeps account of through a predicate on them. -/

namespace LayeredConfig

/-- Whether two rendered texts are complete together, and then equal, of characters with `p`. -/
structure Rendered.Agrees (p : Char → Prop) (a b : Rendered) : Prop where
  isComplete_eq : a.isComplete = b.isComplete
  text_eq : a.isComplete = true → a.text = b.text
  chars : a.isComplete = true → ∀ c ∈ a.text, p c

namespace Rendered.Agrees

variable {p : Char → Prop} {a a' b b' : Rendered}

theorem verbatim {text : List Char} (h : ∀ c ∈ text, p c) :
    (Rendered.verbatim text).Agrees p (.verbatim text) := ⟨rfl, fun _ => rfl, fun _ => h⟩

theorem incomplete (text text' : List Char) : (⟨text, false⟩ : Rendered).Agrees p ⟨text', false⟩ :=
  ⟨rfl, nofun, nofun⟩

theorem append (ha : a.Agrees p a') (hb : b.Agrees p b') :
    (a.append b).Agrees p (a'.append b') := by
  have hcomplete : (a.append b).isComplete = true → a.isComplete = true ∧ b.isComplete = true := by
    simp [Rendered.append]
  constructor
  · simp only [Rendered.append, ha.isComplete_eq, hb.isComplete_eq]
  · intro h
    obtain ⟨h₁, h₂⟩ := hcomplete h
    simp only [Rendered.append, ha.text_eq h₁, hb.text_eq h₂]
  · intro h c hc
    obtain ⟨h₁, h₂⟩ := hcomplete h
    rcases List.mem_append.1 hc with hc | hc
    · exact ha.chars h₁ c hc
    · exact hb.chars h₂ c hc

theorem getD {x y : Option Rendered} (h : Option.Rel (Rendered.Agrees p) x y)
    (text text' : List Char) : (x.getD ⟨text, false⟩).Agrees p (y.getD ⟨text', false⟩) := by
  cases h with
  | none => exact incomplete text text'
  | some h => exact h

end Rendered.Agrees

/-- Whether two attempts came to the same, with answers that are related. -/
inductive Attempt.Rel (R : Rendered → Rendered → Prop) : Attempt → Attempt → Prop
  | found {a b : Rendered} (h : R a b) : Rel R (.found a) (.found b)
  | miss : Rel R .miss .miss
  | cycle : Rel R .cycle .cycle
  | exhausted : Rel R .exhausted .exhausted

namespace Segment

/-- The text that a segment stands for or has in its braces. -/
def content : Segment → List Char
  | literal text => text
  | escaped => opening
  | expression body => body

theorem content_subset_write (s : Segment) : s.content ⊆ s.write := by
  intro c hc
  cases s with
  | literal text => exact hc
  | escaped => exact List.mem_cons_of_mem _ hc
  | expression body => exact List.mem_append_left _ (List.mem_append_right _ hc)

/-- The segments of a text are made of its characters. -/
theorem chars_split {p : Char → Prop} {text : List Char} (h : ∀ c ∈ text, p c) :
    ∀ s ∈ split text, ∀ c ∈ s.content, p c := by
  intro s hs c hc
  have hwrite : c ∈ writeAll (split text) := List.mem_flatMap.2 ⟨s, hs, content_subset_write s hc⟩
  rw [write_split] at hwrite
  exact h c hwrite

end Segment

namespace Evaluator

/-! ### What stands in -/

section Filling

variable {m : Type → Type} [Monad m]

/-- Answers to placeholders with `fill` of the body in place of each that is missing. -/
def filled (fill : List Char → List Char)
    (expand : List Char → StateT Flight m (Option Rendered)) (body : List Char) :
    StateT Flight m (Option Rendered) := do
  let answer ← expand body
  return some (answer.getD ⟨fill body, false⟩)

/-- Renders a text with `fill` of the body in place of each placeholder without an answer. Nothing
is left for masking to stand in for. -/
def renderFilled (ev : Evaluator m) (fill : List Char → List Char) (scope : Scope) :
    Nat → List Char → StateT Flight m Rendered
  | 0, text => renderSegments true (filled fill fun _ => return none) (Segment.split text)
  | levels + 1, text =>
    renderSegments true (filled fill (ev.expand (ev.renderFilled fill scope levels) scope))
      (Segment.split text)

theorem renderSegments_eq_filled [LawfulMonad m] (mask : Bool)
    (expand : List Char → StateT Flight m (Option Rendered)) (segments : List Segment) :
    renderSegments mask expand segments =
      renderSegments true (filled (standIn mask) expand) segments := by
  induction segments with
  | nil => rfl
  | cons segment rest ih =>
    cases segment with
    | literal text => simp only [renderSegments, ih]
    | escaped => simp only [renderSegments, ih]
    | expression body =>
      simp only [renderSegments, filled, ih, bind_assoc, pure_bind, Option.getD_some]

/-- Rendering is one of the ways of filling in. -/
theorem renderWithin_eq_renderFilled [LawfulMonad m] (ev : Evaluator m) (mask : Bool)
    (scope : Scope) (levels : Nat) :
    ev.renderWithin mask scope levels = ev.renderFilled (standIn mask) scope levels := by
  induction levels with
  | zero => exact funext fun text => renderSegments_eq_filled mask _ _
  | succ levels ih =>
    funext text
    unfold renderWithin renderFilled
    rw [ih, renderSegments_eq_filled]

end Filling

/-! ### In step -/

variable {α β γ δ : Type} {p : Char → Prop}

/-- Whether two computations ask the same, about expressions of characters with `p`, and leave the
flight alike, with results that are related. -/
def InStep (p : Char → Prop) (R : α → β → Prop) (x : Logging α) (y : Logging β) : Prop :=
  ∀ flight log, ∃ a b flight' asked,
    (x.run flight).run log = Pure.pure ((a, flight'), log ++ asked) ∧
    (y.run flight).run log = Pure.pure ((b, flight'), log ++ asked) ∧
    R a b ∧ ∀ q ∈ asked, ∀ c ∈ q.expression.toList, p c

namespace InStep

variable {R : α → β → Prop} {S : γ → δ → Prop}

theorem pure {a : α} {b : β} (h : R a b) : InStep p R (Pure.pure a) (Pure.pure b) := by
  intro flight log
  refine ⟨a, b, flight, [], ?_, ?_, h, nofun⟩ <;> rw [List.append_nil] <;> rfl

theorem bind {x : Logging α} {y : Logging β} {f : α → Logging γ} {g : β → Logging δ}
    (hx : InStep p R x y) (hf : ∀ a b, R a b → InStep p S (f a) (g b)) :
    InStep p S (x >>= f) (y >>= g) := by
  intro flight log
  obtain ⟨a, b, flight', asked, hrun, hrun', hab, hp⟩ := hx flight log
  obtain ⟨c, d, flight'', asked', hf, hg, hcd, hp'⟩ := hf a b hab flight' (log ++ asked)
  refine ⟨c, d, flight'', asked ++ asked', ?_, ?_, hcd, ?_⟩
  · rw [StateT.run_bind, StateT.run_bind, hrun, pure_bind, hf, List.append_assoc]
  · rw [StateT.run_bind, StateT.run_bind, hrun', pure_bind, hg, List.append_assoc]
  · exact fun q hq => (List.mem_append.1 hq).elim (hp q) (hp' q)

/-- What is done to the flight without asking. -/
theorem modifyGet (f : Flight → α × Flight) : InStep p Eq (modifyGet f) (modifyGet f) := by
  intro flight log
  refine ⟨(f flight).1, _, (f flight).2, [], ?_, ?_, rfl, nofun⟩ <;> rw [List.append_nil] <;> rfl

theorem get : InStep p Eq get get := modifyGet fun flight => (flight, flight)

theorem set (flight : Flight) : InStep p Eq (set flight) (set flight) :=
  modifyGet fun _ => ((), flight)

theorem modify (f : Flight → Flight) : InStep p Eq (modify f) (modify f) :=
  modifyGet fun flight => ((), f flight)

theorem ask (r : Resolver Id) {expression : String} (h : ∀ c ∈ expression.toList, p c)
    (scope : Scope) :
    InStep p (fun a b => a = b ∧ a = (r.evaluate expression scope).run)
      (liftM (r.logged.evaluate expression scope) : Logging _)
      (liftM (r.logged.evaluate expression scope)) := by
  intro flight log
  refine ⟨_, _, flight, [⟨r.id, expression⟩], rfl, rfl, ⟨rfl, rfl⟩, ?_⟩
  intro q hq
  rw [List.mem_singleton.1 hq]
  exact h

end InStep

/-! ### Two renderings -/

variable {ev : Evaluator Id} {scope : Scope} {render render' : List Char → Logging Rendered}

/-- Whether the answers of a resolver are made of characters with `p`. -/
def AnswersIn (p : Char → Prop) (scope : Scope) (r : Resolver Id) : Prop :=
  ∀ expression answer, r.answer? expression scope = some answer → ∀ c ∈ answer.toList, p c

/-- Whether two ways to render are in step on texts of characters with `p`. -/
def RendersInStep (p : Char → Prop) (render render' : List Char → Logging Rendered) : Prop :=
  ∀ text, (∀ c ∈ text, p c) → InStep p (Rendered.Agrees p) (render text) (render' text)

theorem inStep_attempt (h : RendersInStep p render render') {r : Resolver Id}
    (hr : AnswersIn p scope r) {expression : String} (he : ∀ c ∈ expression.toList, p c) :
    InStep p (Attempt.Rel (Rendered.Agrees p)) (attempt render scope r.logged expression)
      (attempt render' scope r.logged expression) := by
  unfold attempt
  refine InStep.get.bind ?_
  rintro flight _ rfl
  dsimp only
  by_cases hcycle : identity r.logged.id expression ∈ flight.stack
  · rw [if_pos hcycle, if_pos hcycle]
    exact .pure .cycle
  rw [if_neg hcycle, if_neg hcycle]
  by_cases hsteps : maxSteps ≤ flight.steps
  · rw [if_pos hsteps, if_pos hsteps]
    exact (InStep.set _).bind fun _ _ _ => .pure .exhausted
  rw [if_neg hsteps, if_neg hsteps]
  refine (InStep.set _).bind fun _ _ _ => (InStep.ask r he scope).bind ?_
  rintro found _ ⟨rfl, hfound⟩
  rcases found with e | (_ | answer)
  · exact .pure .miss
  · exact .pure .miss
  · have hanswer : r.answer? expression scope = some answer := by
      rw [Resolver.answer?, ← hfound]
      rfl
    refine (InStep.modify _).bind fun _ _ _ => (h _ (hr _ _ hanswer)).bind fun a b hab => ?_
    exact (InStep.modify _).bind fun _ _ _ => .pure (.found hab)

theorem inStep_attemptChain (h : RendersInStep p render render') {chain : List (Resolver Id)}
    (hc : ∀ r ∈ chain, AnswersIn p scope r) {expression : String}
    (he : ∀ c ∈ expression.toList, p c) :
    InStep p (Option.Rel (Rendered.Agrees p))
      (attemptChain render scope expression (chain.map Resolver.logged))
      (attemptChain render' scope expression (chain.map Resolver.logged)) := by
  induction chain with
  | nil => exact .pure .none
  | cons r rest ih =>
    refine (inStep_attempt h (hc r List.mem_cons_self) he).bind ?_
    rintro _ _ (hab | _ | _ | _)
    · exact .pure (.some hab)
    · exact ih fun r hr => hc r (List.mem_cons_of_mem _ hr)
    · exact .pure .none
    · exact .pure .none

/-- What an expression that names a resolver asks it comes from the expression. -/
theorem chars_of_named? {text : List Char} {r : Resolver Id} {rest : String}
    (h : ev.named? text = some (r, rest)) (ht : ∀ c ∈ text, p c) : ∀ c ∈ rest.toList, p c := by
  obtain ⟨cut, hcut, h⟩ := Option.bind_eq_some_iff.1 h
  obtain ⟨s, -, h⟩ := Option.bind_eq_some_iff.1 h
  obtain ⟨colon, -, -, htext⟩ := Text.cutAt?_eq_some hcut
  cases h
  intro c hc
  rw [String.toList_ofList] at hc
  have hmem : c ∈ text := by
    rw [htext]
    exact List.mem_append_right _ (List.mem_cons_of_mem _ hc)
  exact ht c hmem

theorem inStep_expand (h : RendersInStep p render render')
    (hknown : ∀ r, ev.Knows r → AnswersIn p scope r) {body : List Char}
    (hbody : ∀ c ∈ body, p c) :
    InStep p (Option.Rel (Rendered.Agrees p)) (ev.logged.expand render scope body)
      (ev.logged.expand render' scope body) := by
  unfold expand
  refine InStep.get.bind ?_
  rintro flight _ rfl
  by_cases hex : flight.isExhausted = true
  · rw [if_pos hex, if_pos hex]
    exact .pure .none
  rw [if_neg hex, if_neg hex]
  refine (h body hbody).bind fun inner inner' hinner => ?_
  rw [← hinner.isComplete_eq]
  by_cases hcomplete : inner.isComplete = true
  · -- only here an expression is made, and both make the same
    have hchars := hinner.chars hcomplete
    rw [if_neg (by simp [hcomplete]), if_neg (by simp [hcomplete]), ← hinner.text_eq hcomplete,
      named?_logged]
    cases hnamed : ev.named? inner.text with
    | none =>
      refine inStep_attemptChain h (fun r hr => hknown r (.inr hr)) ?_
      rwa [String.toList_ofList]
    | some named =>
      have hr := hknown _ (knows_of_named? hnamed)
      refine (inStep_attempt h hr (chars_of_named? hnamed hchars)).bind ?_
      rintro _ _ (hab | _ | _ | _)
      · exact .pure (.some hab)
      · exact .pure .none
      · exact .pure .none
      · exact .pure .none
  · rw [if_pos (by simp [hcomplete]), if_pos (by simp [hcomplete])]
    exact .pure .none

theorem inStep_filled {expand expand' : List Char → Logging (Option Rendered)} {body : List Char}
    (h : InStep p (Option.Rel (Rendered.Agrees p)) (expand body) (expand' body))
    (fill fill' : List Char → List Char) :
    InStep p (Option.Rel (Rendered.Agrees p)) (filled fill expand body)
      (filled fill' expand' body) :=
  h.bind fun _ _ hab => .pure (.some (.getD hab _ _))

theorem inStep_renderSegments {expand expand' : List Char → Logging (Option Rendered)}
    (h : ∀ body, (∀ c ∈ body, p c) →
      InStep p (Option.Rel (Rendered.Agrees p)) (expand body) (expand' body))
    {segments : List Segment} (hchars : ∀ s ∈ segments, ∀ c ∈ s.content, p c) :
    InStep p (Rendered.Agrees p) (renderSegments true expand segments)
      (renderSegments true expand' segments) := by
  induction segments with
  | nil => exact .pure (.verbatim nofun)
  | cons segment rest ih =>
    have hhere : ∀ c ∈ segment.content, p c := hchars segment List.mem_cons_self
    have hrest := ih fun s hs => hchars s (List.mem_cons_of_mem _ hs)
    cases segment with
    | literal text =>
      exact hrest.bind fun _ _ hab => .pure ((Rendered.Agrees.verbatim hhere).append hab)
    | escaped =>
      exact hrest.bind fun _ _ hab => .pure ((Rendered.Agrees.verbatim hhere).append hab)
    | expression body =>
      refine (h body hhere).bind fun _ _ hanswer => hrest.bind fun _ _ hab => ?_
      exact .pure ((Rendered.Agrees.getD hanswer _ _).append hab)

/-- Whatever stands in, rendering goes in step. -/
theorem inStep_renderFilled (hknown : ∀ r, ev.Knows r → AnswersIn p scope r)
    (fill fill' : List Char → List Char) (levels : Nat) :
    RendersInStep p (ev.logged.renderFilled fill scope levels)
      (ev.logged.renderFilled fill' scope levels) := by
  induction levels with
  | zero =>
    intro text htext
    refine inStep_renderSegments (fun body _ => ?_) (Segment.chars_split htext)
    exact inStep_filled (.pure .none) fill fill'
  | succ levels ih =>
    intro text htext
    refine inStep_renderSegments (fun body hbody => ?_) (Segment.chars_split htext)
    exact inStep_filled (inStep_expand ih hknown hbody) fill fill'

/-- Rendering with the questions written down gives what rendering gives. -/
theorem fst_run_logged (ev : Evaluator Id) (mask : Bool) (scope : Scope) (stack : List String)
    (value : String) :
    ((ev.logged.render mask scope stack value).run []).run.1 =
      (ev.render mask scope stack value).run := by
  obtain ⟨log, hrun, -⟩ := gives_render (follows_logged ev) mask scope stack value [] trivial
  rw [hrun]
  rfl

/-- The questions and the results of two renderings that differ in what stands in. -/
theorem run_renderFilled (p : Char → Prop) (ev : Evaluator Id) (scope : Scope) (stack : List String)
    (value : String) (hknown : ∀ r, ev.Knows r → AnswersIn p scope r)
    (hvalue : ∀ c ∈ value.toList, p c) (fill fill' : List Char → List Char) :
    ∃ a b asked,
      (((ev.logged.renderFilled fill scope maxDepth value.toList).run' (.start stack)).run []) =
        Pure.pure (a, asked) ∧
      (((ev.logged.renderFilled fill' scope maxDepth value.toList).run' (.start stack)).run []) =
        Pure.pure (b, asked) ∧
      a.Agrees p b ∧ ∀ q ∈ asked, ∀ c ∈ q.expression.toList, p c := by
  obtain ⟨a, b, flight, asked, ha, hb, hab, hp⟩ :=
    inStep_renderFilled hknown fill fill' maxDepth value.toList hvalue (.start stack) []
  refine ⟨a, b, asked, ?_, ?_, hab, hp⟩
  · rw [StateT.run'_eq, StateT.run_map, ha]
    rfl
  · rw [StateT.run'_eq, StateT.run_map, hb]
    rfl

/-- **Masking only changes how failures are shown.** Masked or not, the same questions are asked and
the result is complete or is not; a complete text is the same. The same questions are asked with any
other text in place of what has no answer, so nothing of that text gets into a question: a character
that is neither in the value nor in an answer is in no expression that a resolver is asked. -/
theorem render_mask_in_step (ev : Evaluator Id) (scope : Scope) (stack : List String)
    (value : String) :
    ∃ asked,
      (∀ mask, (ev.logged.render mask scope stack value).run [] =
        Pure.pure ((ev.render mask scope stack value).run, asked)) ∧
      (ev.render true scope stack value).run.isComplete =
        (ev.render false scope stack value).run.isComplete ∧
      ((ev.render true scope stack value).run.isComplete = true →
        (ev.render true scope stack value).run.text =
          (ev.render false scope stack value).run.text) ∧
      (∀ fill, ∃ out,
        ((ev.logged.renderFilled fill scope maxDepth value.toList).run' (.start stack)).run [] =
          Pure.pure (out, asked)) ∧
      ∀ mark, mark ∉ value.toList →
        (∀ r, ev.Knows r → ∀ expression answer, r.answer? expression scope = some answer →
          mark ∉ answer.toList) →
        ∀ q ∈ asked, mark ∉ q.expression.toList := by
  -- a log is what one way of filling in leaves, and all leave the same
  have hsame := run_renderFilled (fun _ => True) ev scope stack value
    (fun _ _ _ _ _ _ _ => trivial) (fun _ _ => trivial) (standIn true)
  have hrender : ∀ mask, ev.logged.render mask scope stack value =
      (ev.logged.renderFilled (standIn mask) scope maxDepth value.toList).run' (.start stack) := by
    intro mask
    unfold render
    rw [renderWithin_eq_renderFilled]
  have hfst : ∀ {mask : Bool} {out : Rendered} {asked : List Question},
      (ev.logged.render mask scope stack value).run [] = Pure.pure (out, asked) →
      out = (ev.render mask scope stack value).run := by
    intro mask out asked h
    have := fst_run_logged ev mask scope stack value
    rw [h] at this
    exact this
  obtain ⟨shown, dropped, asked, hshown, hdropped, hagrees, -⟩ := hsame (standIn false)
  have hasked : ∀ fill, ∃ out,
      ((ev.logged.renderFilled fill scope maxDepth value.toList).run' (.start stack)).run [] =
        Pure.pure (out, asked) := by
    intro fill
    obtain ⟨a, b, asked', ha, hb, -, -⟩ := hsame fill
    have hlog : asked = asked' := congrArg Prod.snd (hshown.symm.trans ha)
    exact ⟨b, hlog ▸ hb⟩
  rw [← hrender] at hshown hdropped
  refine ⟨asked, ?_, ?_, ?_, hasked, ?_⟩
  · intro mask
    obtain ⟨out, hout⟩ := hasked (standIn mask)
    rw [← hrender] at hout
    rw [hout, hfst hout]
  · rw [← hfst hshown, ← hfst hdropped]
    exact hagrees.isComplete_eq
  · rw [← hfst hshown, ← hfst hdropped]
    exact hagrees.text_eq
  · intro mark hvalue hanswers q hq hmark
    obtain ⟨a, b, asked', ha, -, -, hp⟩ := run_renderFilled (· ≠ mark) ev scope stack value
      (fun r hr e answer h c hc heq => hanswers r hr e answer h (heq ▸ hc))
      (fun c hc heq => hvalue (heq ▸ hc)) (standIn true) (standIn true)
    rw [← hrender] at ha
    have hlog : asked = asked' := congrArg Prod.snd (hshown.symm.trans ha)
    exact hp q (hlog ▸ hq) mark hmark rfl

/-- A placeholder without an answer inside another one is shown or dropped, and what shows it is in
no question. -/
theorem render_mask_in_step_nested :
    let ev := ofResolvers [.table "t" 0 (.ofList [("c", "y")])]
    let value := "${a${b}}${c}"
    (ev.render true .empty [] value).run = ⟨"?{a${b}}y".toList, false⟩ ∧
      (ev.render false .empty [] value).run = ⟨['y'], false⟩ ∧
      ∃ asked, asked = [⟨"t", "b"⟩, ⟨"t", "c"⟩] ∧
        (∀ mask, (ev.logged.render mask .empty [] value).run [] =
          Pure.pure ((ev.render mask .empty [] value).run, asked)) ∧
        ∀ q ∈ asked, '?' ∉ q.expression.toList := by
  intro ev value
  obtain ⟨asked, hrun, -, -, -, hmark⟩ := render_mask_in_step ev .empty [] value
  refine ⟨by decide +kernel, by decide +kernel, asked, ?_, hrun, hmark '?' (by decide) ?_⟩
  · have hlog : ((ev.logged.render false .empty [] value).run []).run.2 =
        [⟨"t", "b"⟩, ⟨"t", "c"⟩] := by decide +kernel
    rw [hrun] at hlog
    exact hlog
  · intro r hr expression answer h
    have hmem := List.mem_singleton.1 (knows_ofResolvers hr)
    rw [hmem] at h
    have hentry : (expression, answer) ∈ [("c", "y")] := KeyMap.mem_of_get?_ofList h
    cases List.mem_singleton.1 hentry
    decide

end Evaluator

end LayeredConfig
