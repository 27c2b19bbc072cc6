import LayeredConfig.Live
import LayeredConfig.Proofs.Store.Story

/-! # Reloads that are overtaken

A reload takes its number when it starts and publishes when it ends. Numbers go up, and the number
of what is published is the greatest that has published, so a reload that ends behind the
publication of a later one finds a greater number than its own (`Stretch.lt_publishedReload`). It
publishes nothing and calls nobody (`finishReload_of_superseded`).

Whether all loads have failed is asked before the numbers are compared. A reload that is overtaken
therefore fails if it has loaded nothing and there are no fixed sources (`reload_overtaken`); else
its answer is an event without changes. -/

namespace LayeredConfig

/-- Whether a reload was published that was started later than the one with a number. -/
def Superseded (os : List Occurrence) (number : Nat) : Prop :=
  ∃ before after later loaded outcome, os = before ++ .started number :: after ∧
    .started later ∈ after ∧ .finished later loaded outcome ∈ os ∧
    (Occurrence.finished later loaded outcome).publishes = true

namespace Course

variable {v : View Id} {providers : List Provider} {os : List Occurrence} {o : Occurrence}
  {b c d : Course}

/-! ### Numbers -/

theorem Step.reloads (step : Step v providers os c o d) :
    c.store.reloads ≤ d.store.reloads ∧
      ∀ number, o = .started number → c.store.reloads < number ∧ number ≤ d.store.reloads := by
  cases step with
  | commit changes =>
    exact ⟨Nat.le_of_eq (Store.reloads_commit v changes c.store).symm, fun _ h => by cases h⟩
  | refresh => exact ⟨Nat.le_refl _, fun _ h => by cases h⟩
  | start =>
    refine ⟨Nat.le_succ _, fun number h => ?_⟩
    cases h
    exact ⟨Nat.lt_succ_self _, Nat.le_refl _⟩
  | @finish number loaded _ =>
    have hsame := Store.reloads_finishReload v providers number loaded c.store
    exact ⟨Nat.le_of_eq hsame.symm, fun _ h => by cases h⟩
  | read => exact ⟨Nat.le_of_eq (Store.reloads_seen v c.store).symm, fun _ h => by cases h⟩
  | keep _ => exact ⟨Nat.le_of_eq (Store.reloads_keep c.store _).symm, fun _ h => by cases h⟩

theorem Step.publishedReload (step : Step v providers os c o d) :
    c.store.publishedReload ≤ d.store.publishedReload ∧
      ∀ number loaded outcome, o = .finished number loaded outcome → o.publishes →
        d.store.publishedReload = number := by
  cases step with
  | commit changes =>
    have hsame := Store.publishedReload_commit v changes c.store
    exact ⟨Nat.le_of_eq hsame.symm, fun _ _ _ h => by cases h⟩
  | refresh => exact ⟨Nat.le_refl _, fun _ _ _ h => by cases h⟩
  | start => exact ⟨Nat.le_refl _, fun _ _ _ h => by cases h⟩
  | @finish number loaded _ =>
    rcases Store.finishReload_cases v providers number loaded c.store with
      h | ⟨-, h⟩ | ⟨event, hle, h, -⟩
    · rw [h]
      refine ⟨Nat.le_refl _, fun _ _ _ ho hpub => ?_⟩
      cases ho
      cases hpub
    · rw [h]
      refine ⟨by simp, fun _ _ _ ho hpub => ?_⟩
      cases ho
      simp [Occurrence.publishes, ChangeEvent.between] at hpub
    · rw [h]
      refine ⟨by simpa using hle, fun _ _ _ ho _ => ?_⟩
      cases ho
      simp
  | read => exact ⟨by simp, fun _ _ _ h => by cases h⟩
  | keep _ => exact ⟨by simp, fun _ _ _ h => by cases h⟩

theorem Stretch.le_reloads (stretch : Stretch v providers b os c) {number : Nat}
    (h : .started number ∈ os) : number ≤ c.store.reloads := by
  induction stretch with
  | nil => exact absurd h List.not_mem_nil
  | snoc _ step ih =>
    obtain ⟨hle, hstarted⟩ := step.reloads
    rcases List.mem_append.1 h with h | h
    · exact Nat.le_trans (ih h) hle
    · exact (hstarted number (List.mem_singleton.1 h).symm).2

/-- What starts later has a greater number. -/
theorem Stretch.pairwise_started (stretch : Stretch v providers b os c) :
    os.Pairwise fun x y => ∀ m n, x = .started m → y = .started n → m < n := by
  induction stretch with
  | nil => exact .nil
  | snoc stretch step ih =>
    refine List.pairwise_append.2 ⟨ih, List.pairwise_singleton _ _, fun x hx y hy m n hm hn => ?_⟩
    have hle := stretch.le_reloads (hm ▸ hx)
    have hlt := (step.reloads.2 n ((List.mem_singleton.1 hy).symm.trans hn)).1
    omega

/-- The newest of the reloads that were published is the one whose number is kept. -/
theorem Stretch.le_publishedReload (stretch : Stretch v providers b os c) {number : Nat}
    {loaded : Loaded} {outcome : Result ChangeEvent} (h : .finished number loaded outcome ∈ os)
    (hpub : (Occurrence.finished number loaded outcome).publishes = true) :
    number ≤ c.store.publishedReload := by
  induction stretch with
  | nil => exact absurd h List.not_mem_nil
  | snoc _ step ih =>
    obtain ⟨hle, hfinished⟩ := step.publishedReload
    rcases List.mem_append.1 h with h | h
    · exact Nat.le_trans (ih h) hle
    · have ho := List.mem_singleton.1 h
      exact Nat.le_of_eq (hfinished number loaded outcome ho.symm (ho ▸ hpub)).symm

theorem Stretch.lt_publishedReload (stretch : Stretch v providers b os c) {number : Nat}
    (h : Superseded os number) : number < c.store.publishedReload := by
  obtain ⟨before, after, later, loaded, outcome, hos, hlater, hfinished, hpub⟩ := h
  have hnumbers := stretch.pairwise_started
  rw [hos, List.pairwise_append, List.pairwise_cons] at hnumbers
  have hlt := hnumbers.2.1.1 _ hlater number later rfl rfl
  exact Nat.lt_of_lt_of_le hlt (stretch.le_publishedReload hfinished hpub)

end Course

/-! ### The end of a reload that was overtaken -/

namespace Store

/-- What a reload answers that was overtaken: failure if there is nothing to read from, and else an
event of the version that it has found, without changes. -/
def passedOver (s : Store) (providers : List Provider) (loaded : Loaded) : Result ChangeEvent :=
  if Provider.allFailed providers loaded && s.fixed.isEmpty then
    .error (.noSources providers.length)
  else .ok ⟨s.version, s.version, []⟩

theorem finishReload_of_lt (v : View Id) (providers : List Provider) {number : Nat}
    (loaded : Loaded) {s : Store} (hlt : number < s.publishedReload) :
    ∃ s', s.finishReload v providers number loaded = (s.passedOver providers loaded, s') ∧
      (s' = s ∨ s' = s.seen v) := by
  have hbetween : ChangeEvent.between (s.snapshot v) (s.snapshot v) =
      ⟨s.version, s.version, []⟩ := by
    rw [ChangeEvent.between_self, version_snapshot]
  unfold finishReload passedOver
  cases Provider.allFailed providers loaded && s.fixed.isEmpty with
  | true => exact ⟨s, rfl, .inl rfl⟩
  | false => exact ⟨s.seen v, by simp [hlt, hbetween], .inr rfl⟩

end Store

/-- How many providers a change has found to give nothing, if it failed for this reason. -/
def attempted? : Result ChangeEvent → Option Nat
  | .ok _ => none
  | .error e =>
    match e with
    | .noSources attempted => some attempted
    | _ => none

theorem eq_of_attempted? {outcome : Result ChangeEvent} {n : Nat}
    (h : attempted? outcome = some n) : outcome = .error (.noSources n) := by
  cases outcome with
  | ok event => cases h
  | error e =>
    cases e <;> cases h
    rfl

namespace Live

open Course

/-- A reload that ends behind the publication of a later one publishes nothing, calls nobody and
leaves everything but the cache alone, whatever its loads have come to. -/
theorem finishReload_of_superseded {b c : Course} {v : View Id} {providers : List Provider}
    {os : List Occurrence} (stretch : Stretch v providers b os c) {number : Nat}
    (h : Superseded os number) (loaded : Loaded) (l : Live) (hv : l.quiet = v)
    (hp : l.setup.providers = providers) (hs : l.store = c.store) :
    ∃ s, (finishReload number loaded).run l =
        pure (l.store.passedOver providers loaded, { l with store := s }) ∧
      s.version = l.store.version ∧ s.published = l.store.published ∧ s.fixed = l.store.fixed ∧
      s.writable = l.store.writable ∧ s.reloads = l.store.reloads ∧
      s.publishedReload = l.store.publishedReload := by
  have hlt : number < l.store.publishedReload := by
    rw [hs]
    exact stretch.lt_publishedReload h
  obtain ⟨s, hfinish, hseen⟩ := Store.finishReload_of_lt v providers loaded hlt
  refine ⟨s, ?_, ?_⟩
  · have hstep (step : Store → Result ChangeEvent × Store) : (onStore step).run l =
        pure ((step l.store).1, { l with store := (step l.store).2 }) := rfl
    unfold finishReload
    rw [StateT.run_bind, StateT.run_get, pure_bind, StateT.run_bind, hv, hp, hstep, hfinish,
      pure_bind]
    unfold Store.passedOver
    cases Provider.allFailed providers loaded && l.store.fixed.isEmpty <;> rfl
  · rcases hseen with rfl | rfl
    · exact ⟨rfl, rfl, rfl, rfl, rfl, rfl⟩
    · simp

/-- A provider whose second load asks for a reload and then fails. -/
def faltering : Provider :=
  .inSteps "faltering" [.loaded [(Table.ofPairs "a" [("k", "0")]).toSource (.object 0)],
    .failed (.sourceFailed "faltering" "broken"),
    .loaded [(Table.ofPairs "a" [("k", "2")]).toSource (.object 1)]] [1]

/-- A context at work that has nothing to read from but that provider. -/
def overtaken : Live where
  setup := ⟨[faltering], defaultTimeout, .ofFilters [.hideReserved], [], true⟩
  store := .initial [] none (Provider.loadAll [faltering] defaultTimeout 0 .empty)
  files := .empty

/-- Two reloads start, and the second is published. -/
theorem exists_superseded_stretch :
    ∃ os c, Stretch overtaken.quiet [faltering] (.start overtaken.store) os c ∧ Superseded os 1 ∧
      c.store.version = 2 ∧ c.store.publishedReload = 2 := by
  have hunder : UnderWay [.started 1, .started 2] 2 := by simp [UnderWay]
  refine ⟨_, _, .snoc (.snoc (.snoc .nil (@Step.start _ _ [] _)) (@Step.start _ _ [] _))
    (.finish ⟨[], 0⟩ hunder), ?_, rfl, rfl⟩
  exact ⟨[], _, 2, ⟨[], 0⟩, _, rfl, List.mem_cons_self,
    List.mem_append_right _ (List.mem_singleton.2 rfl), rfl⟩

/-- The first of the two reloads comes to its end with something to read, and nothing happens. -/
theorem finishReload_overtaken :
    ∃ os c s, Stretch overtaken.quiet [faltering] (.start overtaken.store) os c ∧
      Superseded os 1 ∧
      (finishReload 1 ⟨[], 0⟩).run { overtaken with store := c.store } =
        pure (.ok ⟨2, 2, []⟩, { overtaken with store := s }) ∧
      s.published = c.store.published ∧ s.version = 2 ∧ s.publishedReload = 2 := by
  obtain ⟨os, c, stretch, h, hversion, hreload⟩ := exists_superseded_stretch
  obtain ⟨s, hrun, hsversion, hpublished, -, -, -, hsreload⟩ := finishReload_of_superseded stretch h
    ⟨[], 0⟩ { overtaken with store := c.store } rfl rfl rfl
  refine ⟨os, c, s, stretch, h, ?_, hpublished, hsversion.trans hversion, hsreload.trans hreload⟩
  rw [hrun, ← hversion]
  rfl

/-- The reload within the load has been published, and the one around it fails. -/
theorem reload_overtaken :
    (reload.run overtaken).1 = .error (.noSources 1) ∧
      (reload.run overtaken).2.store.publishedReload = 2 ∧
      (reload.run overtaken).2.store.version = 2 ∧
      (reload.run overtaken).2.log.filterMap (fun
        | .nestedReload outcome => publishedEvent? outcome
        | _ => none) = [⟨1, 2, [⟨"k", .updated, some "0", some "2"⟩]⟩] := by
  have hfails : attempted? (reload.run overtaken).1 = some 1 := by decide +kernel
  exact ⟨eq_of_attempted? hfails, by decide +kernel, by decide +kernel, by decide +kernel⟩

end Live

end LayeredConfig
