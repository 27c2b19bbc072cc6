import LayeredConfig.View
import Mathlib.Data.List.Forall2

/-! # Reading in a world

Resolvers may act on the world they run in, and the world may change while a text is rendered. As
long as every resolver answers as a function would, what is read is what the functions give, and the
world has changed as the resolvers may change it (`View.Follows.gives_build`,
`View.Follows.gives_get`).

`Passage.Gives` says this of one computation. It is closed under the steps that computations are
made of, and `Passage.Tracks` carries it through the state of rendering. -/

namespace LayeredConfig

/-- What a world is like, and how it may change while something is computed in it: not at all, or
further and further. -/
structure Passage (σ : Type) where
  holds : σ → Prop
  leads : σ → σ → Prop
  refl (w : σ) : leads w w
  trans {a b c : σ} (hab : leads a b) (hbc : leads b c) : leads a c
  keeps {a b : σ} (ha : holds a) (hab : leads a b) : holds b

namespace Passage

variable {σ α β : Type} {P : Passage σ}

/-! ### Results whatever the world is like -/

/-- Whether a computation gives a result in any world, which it changes only as it may. -/
def Gives (P : Passage σ) (x : StateM σ α) (a : α) : Prop :=
  ∀ w, P.holds w → ∃ w', x.run w = pure (a, w') ∧ P.leads w w'

theorem Gives.pure (a : α) : P.Gives (Pure.pure a) a := fun w _ => ⟨w, rfl, P.refl w⟩

theorem Gives.bind {x : StateM σ α} {f : α → StateM σ β} {a : α} {b : β} (hx : P.Gives x a)
    (hf : P.Gives (f a) b) : P.Gives (x >>= f) b := by
  intro w h
  obtain ⟨w', hxw, hw⟩ := hx w h
  obtain ⟨w'', hfw, hw'⟩ := hf w' (P.keeps h hw)
  refine ⟨w'', ?_, P.trans hw hw'⟩
  rw [StateT.run_bind, hxw]
  exact hfw

theorem Gives.map {x : StateM σ α} {a : α} (hx : P.Gives x a) (f : α → β) :
    P.Gives (f <$> x) (f a) := by
  intro w h
  obtain ⟨w', hxw, hw⟩ := hx w h
  refine ⟨w', ?_, hw⟩
  rw [StateT.run_map, hxw]
  rfl

theorem Gives.mapM {f : α → StateM σ β} {g : α → Id β} (h : ∀ a, P.Gives (f a) (g a).run)
    (as : List α) : P.Gives (as.mapM f) (as.mapM g).run := by
  induction as with
  | nil => exact .pure _
  | cons a rest ih =>
    rw [List.mapM_cons, List.mapM_cons]
    exact (h a).bind (ih.bind (.pure _))

/-! ### Computations that render -/

/-- Whether a computation goes in a world as another one does without it. -/
def Tracks (P : Passage σ) (x : StateT Flight (StateM σ) α) (y : StateT Flight Id α) : Prop :=
  ∀ flight, P.Gives (x.run flight) (y.run flight).run

theorem Tracks.pure (a : α) : P.Tracks (Pure.pure a) (Pure.pure a) := fun _ => Gives.pure _

theorem Tracks.bind {x : StateT Flight (StateM σ) α} {y : StateT Flight Id α}
    {f : α → StateT Flight (StateM σ) β} {g : α → StateT Flight Id β} (hx : P.Tracks x y)
    (hf : ∀ a, P.Tracks (f a) (g a)) : P.Tracks (x >>= f) (y >>= g) := by
  intro flight
  rw [StateT.run_bind, StateT.run_bind]
  exact (hx flight).bind (hf _ _)

theorem Tracks.get : P.Tracks get get := fun _ => Gives.pure _

theorem Tracks.set (flight : Flight) : P.Tracks (set flight) (set flight) := fun _ => Gives.pure _

theorem Tracks.modify (f : Flight → Flight) : P.Tracks (modify f) (modify f) :=
  fun _ => Gives.pure _

theorem Tracks.lift {x : StateM σ α} {y : Id α} (h : P.Gives x y.run) :
    P.Tracks (liftM x) (liftM y) := by
  intro flight
  exact Gives.bind (f := fun a => Pure.pure (a, flight)) h (.pure (y.run, flight))

end Passage

/-! ### Resolvers and evaluators -/

/-- A resolver in a world that answers as a function does. -/
structure Resolver.Follows {σ : Type} (P : Passage σ) (r' : Resolver (StateM σ)) (r : Resolver Id) :
    Prop where
  id : r'.id = r.id
  priority : r'.priority = r.priority
  isInChain : r'.isInChain = r.isInChain
  evaluate : ∀ expression scope, P.Gives (r'.evaluate expression scope)
    (r.evaluate expression scope).run

/-- A resolver that is a function answers as it does where nothing acts. -/
theorem Resolver.follows_lift {σ : Type} (P : Passage σ) (r : Resolver Id) :
    (r.lift : Resolver (StateM σ)).Follows P r.lift :=
  ⟨rfl, rfl, rfl, fun expression scope => Passage.Gives.pure (r.evaluate expression scope)⟩

namespace Evaluator

open Passage

/-- The evaluator with another resolver in the place of each. -/
def map {m n : Type → Type} (f : Resolver m → Resolver n) (ev : Evaluator m) : Evaluator n where
  byId := ev.byId.filterMap fun _ r => some (f r)
  chain := ev.chain.map f

variable {σ : Type} {P : Passage σ}

/-- An evaluator in a world whose resolvers answer as functions do. -/
structure Follows (P : Passage σ) (ev' : Evaluator (StateM σ)) (ev : Evaluator Id) : Prop where
  byId : ∀ id, Option.Rel (Resolver.Follows P) (ev'.byId.get? id) (ev.byId.get? id)
  chain : List.Forall₂ (Resolver.Follows P) ev'.chain ev.chain

theorem follows_map {f : Resolver Id → Resolver (StateM σ)} (h : ∀ r, (f r).Follows P r)
    (ev : Evaluator Id) : (ev.map f).Follows P ev where
  byId id := by
    show Option.Rel _ ((ev.byId.filterMap fun _ r => some (f r)).get? id) _
    rw [KeyMap.get?_filterMap]
    cases ev.byId.get? id with
    | none => exact .none
    | some r => exact .some (h r)
  chain := List.forall₂_map_left_iff.2 (List.forall₂_same.2 fun r _ => h r)

section Registering

variable {m : Type → Type} {ρ : Type}

theorem byId_ofResolvers_map (f : ρ → Resolver m) (rs : List ρ) :
    (ofResolvers (rs.map f)).byId =
      (KeyMap.ofList (rs.map fun r => ((f r).id, r))).filterMap fun _ r => some (f r) := by
  rw [← KeyMap.ofList_map, List.map_map]
  show KeyMap.ofList ((rs.map f).map _) = _
  rw [List.map_map]
  rfl

theorem chain_ofResolvers_map (f : ρ → Resolver m) (rs : List ρ) :
    (ofResolvers (rs.map f)).chain =
      (Order.sort (fun a b => notAfter (f a) (f b))
        ((KeyMap.ofList (rs.map fun r => ((f r).id, r))).values.filter fun r =>
          (f r).isInChain)).map f := by
  show Order.sort notAfter ((ofResolvers (rs.map f)).byId.values.filter _) = _
  rw [byId_ofResolvers_map, KeyMap.values_filterMap_some, List.filter_map, Order.sort_map]
  rfl

end Registering

/-- Resolvers that answer as functions do are registered as these are. -/
theorem follows_ofResolvers {ρ : Type} {f' : ρ → Resolver (StateM σ)} {f : ρ → Resolver Id}
    (h : ∀ r, (f' r).Follows P (f r)) (rs : List ρ) :
    (ofResolvers (rs.map f')).Follows P (ofResolvers (rs.map f)) where
  byId id := by
    rw [byId_ofResolvers_map, byId_ofResolvers_map, KeyMap.get?_filterMap, KeyMap.get?_filterMap]
    simp only [fun r => (h r).id]
    cases (KeyMap.ofList (rs.map fun r => ((f r).id, r))).get? id with
    | none => exact .none
    | some r => exact .some (h r)
  chain := by
    have hle : (fun a b => notAfter (f' a) (f' b)) = fun a b => notAfter (f a) (f b) := by
      funext a b
      unfold notAfter
      rw [(h a).id, (h a).priority, (h b).id, (h b).priority]
    rw [chain_ofResolvers_map, chain_ofResolvers_map, hle]
    simp only [fun r => (h r).id, fun r => (h r).isInChain]
    exact List.forall₂_map_left_iff.2 (List.forall₂_map_right_iff.2
      (List.forall₂_same.2 fun r _ => h r))

variable {ev' : Evaluator (StateM σ)} {ev : Evaluator Id}
  {render' : List Char → StateT Flight (StateM σ) Rendered}
  {render : List Char → StateT Flight Id Rendered}

theorem tracks_attempt {r' : Resolver (StateM σ)} {r : Resolver Id}
    (h : ∀ text, P.Tracks (render' text) (render text)) (hr : r'.Follows P r) (scope : Scope)
    (expression : String) :
    P.Tracks (attempt render' scope r' expression) (attempt render scope r expression) := by
  unfold attempt
  rw [hr.id]
  refine .bind .get fun flight => ?_
  dsimp only
  split
  · exact .pure _
  · split
    · exact .bind (.set _) fun _ => .pure _
    · refine .bind (.set _) fun _ => .bind (.lift (hr.evaluate _ _)) fun answer => ?_
      split
      · exact .bind (.modify _) fun _ => .bind (h _) fun _ => .bind (.modify _) fun _ => .pure _
      · exact .pure _

theorem tracks_attemptChain {chain' : List (Resolver (StateM σ))} {chain : List (Resolver Id)}
    (h : ∀ text, P.Tracks (render' text) (render text))
    (hc : List.Forall₂ (Resolver.Follows P) chain' chain) (scope : Scope)
    (expression : String) :
    P.Tracks (attemptChain render' scope expression chain')
      (attemptChain render scope expression chain) := by
  induction hc with
  | nil => exact .pure _
  | cons hr _ ih =>
    refine .bind (tracks_attempt h hr scope expression) fun attempt => ?_
    cases attempt with
    | found answer => exact .pure _
    | miss => exact ih
    | cycle => exact .pure _
    | exhausted => exact .pure _

theorem Follows.named? (h : ev'.Follows P ev) (expression : List Char) :
    Option.Rel (fun a b => a.1.Follows P b.1 ∧ a.2 = b.2) (ev'.named? expression)
      (ev.named? expression) := by
  unfold Evaluator.named?
  cases Text.cutAt? (· = ':') expression with
  | none => exact .none
  | some cut =>
    show Option.Rel _ ((ev'.byId.get? (String.ofList cut.1)).bind _)
      ((ev.byId.get? (String.ofList cut.1)).bind _)
    have hid := h.byId (String.ofList cut.1)
    generalize ev'.byId.get? (String.ofList cut.1) = a,
      ev.byId.get? (String.ofList cut.1) = b at hid ⊢
    cases hid with
    | none => exact .none
    | some hr => exact .some ⟨hr, rfl⟩

theorem tracks_expand (h : ev'.Follows P ev)
    (hr : ∀ text, P.Tracks (render' text) (render text)) (scope : Scope) (body : List Char) :
    P.Tracks (ev'.expand render' scope body) (ev.expand render scope body) := by
  unfold expand
  refine .bind .get fun flight => ?_
  split
  · exact .pure _
  · refine .bind (hr _) fun inner => ?_
    split
    · exact .pure _
    · have hn := h.named? inner.text
      generalize ev'.named? inner.text = a, ev.named? inner.text = b at hn ⊢
      cases hn with
      | none => exact tracks_attemptChain hr h.chain scope _
      | @some a b hab =>
        obtain ⟨r', rest'⟩ := a
        obtain ⟨r, rest⟩ := b
        obtain ⟨hab, rfl⟩ := hab
        refine .bind (tracks_attempt hr hab scope _) fun attempt => ?_
        cases attempt <;> exact .pure _

/-- A relation that holds of results and is kept by sequences holds of rendering, if it does of the
answers to placeholders. -/
theorem renderSegments_rel {m n : Type → Type} [Monad m] [Monad n]
    {R : (α : Type) → StateT Flight m α → StateT Flight n α → Prop}
    (hpure : ∀ α (a : α), R α (pure a) (pure a))
    (hbind : ∀ α β x y (f : α → StateT Flight m β) (g : α → StateT Flight n β), R α x y →
      (∀ a, R β (f a) (g a)) → R β (x >>= f) (y >>= g))
    (mask : Bool) {expand' : List Char → StateT Flight m (Option Rendered)}
    {expand : List Char → StateT Flight n (Option Rendered)}
    (h : ∀ body, R _ (expand' body) (expand body)) (segments : List Segment) :
    R _ (renderSegments mask expand' segments) (renderSegments mask expand segments) := by
  induction segments with
  | nil => exact hpure _ _
  | cons segment rest ih =>
    cases segment with
    | literal text => exact hbind _ _ _ _ _ _ ih fun _ => hpure _ _
    | escaped => exact hbind _ _ _ _ _ _ ih fun _ => hpure _ _
    | expression body =>
      refine hbind _ _ _ _ _ _ (h body) fun _ => ?_
      exact hbind _ _ _ _ _ _ ih fun _ => hpure _ _

theorem tracks_renderSegments (mask : Bool)
    {expand' : List Char → StateT Flight (StateM σ) (Option Rendered)}
    {expand : List Char → StateT Flight Id (Option Rendered)}
    (h : ∀ body, P.Tracks (expand' body) (expand body)) (segments : List Segment) :
    P.Tracks (renderSegments mask expand' segments) (renderSegments mask expand segments) :=
  renderSegments_rel (R := fun _ => P.Tracks) (fun _ => .pure) (fun _ _ _ _ _ _ => .bind) mask h
    segments

theorem tracks_renderWithin (h : ev'.Follows P ev) (mask : Bool) (scope : Scope) (levels : Nat)
    (text : List Char) :
    P.Tracks (ev'.renderWithin mask scope levels text)
      (ev.renderWithin mask scope levels text) := by
  induction levels generalizing text with
  | zero => exact tracks_renderSegments mask (fun _ => .pure _) _
  | succ levels ih => exact tracks_renderSegments mask (tracks_expand h ih scope) _

theorem gives_render (h : ev'.Follows P ev) (mask : Bool) (scope : Scope) (stack : List String)
    (value : String) :
    P.Gives (ev'.render mask scope stack value) (ev.render mask scope stack value).run :=
  (tracks_renderWithin h mask scope maxDepth value.toList (.start stack)).map Prod.fst

theorem gives_resolveKey (h : ev'.Follows P ev) (mask : Bool) (scope : Scope) (key value : String) :
    P.Gives (ev'.resolveKey mask scope key value) (ev.resolveKey mask scope key value).run :=
  (gives_render h mask scope _ value).bind (.pure _)

end Evaluator

/-! ### Views -/

namespace View

variable {σ : Type} {P : Passage σ}

/-- A view in a world that reads as another one does without it. -/
structure Follows (P : Passage σ) (v' : View (StateM σ)) (v : View Id) : Prop where
  pipeline : v'.pipeline = v.pipeline
  evaluator : v'.evaluator.Follows P v.evaluator
  mask : v'.mask = v.mask

namespace Follows

variable {v' : View (StateM σ)} {v : View Id}

theorem lookup (h : v'.Follows P v) (set : SourceSet) : v'.lookup set = v.lookup set := by
  funext key
  unfold View.lookup
  rw [h.pipeline]

theorem scope (h : v'.Follows P v) (set : SourceSet) : v'.scope set = v.scope set := by
  unfold View.scope
  rw [h.lookup]

theorem gives_resolve (h : v'.Follows P v) (set : SourceSet) (key raw : String) :
    P.Gives (v'.resolve set key raw) (v.resolve set key raw).run := by
  unfold View.resolve
  rw [h.scope, h.mask]
  exact Evaluator.gives_resolveKey h.evaluator _ _ key raw

theorem gives_getValue (h : v'.Follows P v) (set : SourceSet) (key : String) :
    P.Gives (v'.getValue set key) (v.getValue set key).run := by
  unfold View.getValue
  rw [h.lookup]
  cases v.lookup set key with
  | none => exact .pure _
  | some value =>
    cases hvalue : value.value with
    | none => simp only [hvalue]; exact .pure _
    | some raw => simp only [hvalue]; exact (h.gives_resolve set key raw).bind (.pure _)

/-- Reading a key gives what it gives where nothing acts. -/
theorem gives_get (h : v'.Follows P v) (set : SourceSet) (key : String) :
    P.Gives (v'.get set key) (v.get set key).run :=
  (h.gives_getValue set key).bind (.pure _)

/-- Building a snapshot gives the one that is built where nothing acts. -/
theorem gives_build (h : v'.Follows P v) (set : SourceSet) :
    P.Gives (v'.build set) (v.build set).run := by
  have hvisible : v'.visible set = v.visible set := by
    unfold visible
    rw [h.pipeline]
  unfold build
  rw [hvisible]
  refine Passage.Gives.bind (Passage.Gives.mapM (fun p => ?_) _) (.pure _)
  exact (h.gives_resolve set p.1 _).bind (.pure _)

end Follows

end View

end LayeredConfig
