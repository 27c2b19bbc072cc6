import LayeredConfig.Proofs.Live.Moves
import LayeredConfig.Proofs.Live.Superseded

/-! # Reloads that fail

A reload fails if there are providers, all of which fail in its load, and no sources besides
(`Setup.LoadFails`); a build fails for the same reason. Its number is taken then, and nothing else
has happened (`Live.reload_leaves_no_trace`): from there on the context answers whatever happens to
it as one would in which this reload was never made and every other one loads what it does here
(`Live.without`).

That context counts one reload less, so that those which start later have other numbers in it
(`numberBeside`). They are the only difference, and numbers are only compared, so
`Renumbering.coupled_makeAll` says that there is no other, whatever happens: reloads within loads,
commits of hooks and listeners, and the end of an older reload that is still loading. -/

namespace LayeredConfig

open List (Forall₂)

/-! ### A number that is left out -/

/-- The number of a reload, from the one that it has where the reload `n` is not made. -/
def numberBeside (n k : Nat) : Nat := if k < n then k else k + 1

/-- The number of a reload where the reload `n` is not made, if it is another one. -/
def numberWithout? (n k : Nat) : Option Nat :=
  if k < n then some k else if k = n then none else some (k - 1)

theorem numberBeside_of_lt {n k : Nat} (h : k < n) : numberBeside n k = k := if_pos h

theorem numberBeside_of_le {n k : Nat} (h : n ≤ k) : numberBeside n k = k + 1 :=
  if_neg (Nat.not_lt_of_le h)

theorem numberBeside_lt_iff (n a b : Nat) : numberBeside n a < numberBeside n b ↔ a < b := by
  unfold numberBeside
  split <;> split <;> omega

theorem numberWithout?_eq_some {n m k : Nat} :
    numberWithout? n m = some k ↔ m = numberBeside n k := by
  unfold numberWithout? numberBeside
  split
  · rw [Option.some.injEq]
    split <;> omega
  · split
    · simp only [reduceCtorEq, false_iff]
      split <;> omega
    · rw [Option.some.injEq]
      split <;> omega

/-- The provider where the reload `n` is not made: every other load gives what it does here. -/
def Provider.skipping (n : Nat) (p : Provider) : Provider where
  name := p.name
  load k := p.load (numberBeside n k)
  nested := p.nested.filterMap (numberWithout? n)

theorem Provider.renumbered_skipping (n : Nat) (p : Provider) :
    p.Renumbered (numberBeside n) (p.skipping n) where
  name := rfl
  load _ := rfl
  nested k := by simp [skipping, numberWithout?_eq_some]

def Setup.skipping (n : Nat) (s : Setup) : Setup :=
  { s with providers := s.providers.map (Provider.skipping n) }

/-! ### Failure -/

/-- Whether there are providers, and all of them fail in a load. -/
def Setup.LoadFails (s : Setup) (number : Nat) (files : FileTree) : Prop :=
  s.providers ≠ [] ∧ ∀ p ∈ s.providers, ∃ e, p.loadOne s.timeout number files = .error e

theorem Setup.allFailed_load (s : Setup) (number : Nat) (files : FileTree) :
    Provider.allFailed s.providers (s.load number files) = true ↔ s.LoadFails number files := by
  have hskip (outcome : Result (List Source)) :
      outcome.skip.isNone = true ↔ ∃ e, outcome = .error e := by
    cases outcome <;> simp [Result.skip]
  unfold Provider.allFailed load Provider.loadAll LoadFails
  simp [hskip, List.countP_map, List.countP_eq_length]

/-- A build fails if the first load does and there is nothing else. -/
theorem Builder.build_eq_error_iff (b : Builder) (files : FileTree) (e : ConfigError) :
    b.build files = .error e ↔
      e = .noSources b.providers.length ∧ b.setup.LoadFails 0 files ∧ b.sources = [] := by
  rw [← Setup.allFailed_load, ← List.isEmpty_iff, ← Bool.and_eq_true]
  change (if (Provider.allFailed b.setup.providers (b.setup.load 0 files) && b.sources.isEmpty) then
    Except.error _ else Except.ok _) = _ ↔ _
  cases Provider.allFailed b.setup.providers (b.setup.load 0 files) && b.sources.isEmpty with
  | true => exact ⟨fun h => ⟨(Except.error.inj h).symm, rfl⟩, fun h => congrArg _ h.1.symm⟩
  | false => exact ⟨fun h => (by cases h), fun h => (by cases h.2)⟩

/-! ### The end of a reload -/

namespace Live

variable (l : Live) (number : Nat) (loaded : Loaded)

theorem finishReload_of_fails {l : Live} {loaded : Loaded}
    (h : (Provider.allFailed l.setup.providers loaded && l.store.fixed.isEmpty) = true) :
    (finishReload number loaded).run l =
      pure (.error (.noSources l.setup.providers.length), l) := by
  have hstep : l.store.finishReload l.quiet l.setup.providers number loaded =
      (.error (.noSources l.setup.providers.length), l.store) := if_pos h
  unfold finishReload
  rw [StateT.run_bind, StateT.run_get, pure_bind, StateT.run_bind, onStore_run, pure_bind, hstep]
  rfl

theorem finishReload_of_not_fails {l : Live} {loaded : Loaded}
    (h : (Provider.allFailed l.setup.providers loaded && l.store.fixed.isEmpty) = false) :
    ∃ event l', (finishReload number loaded).run l = pure (.ok event, l') := by
  obtain ⟨event, s, hstep⟩ : ∃ event s,
      l.store.finishReload l.quiet l.setup.providers number loaded = (.ok event, s) := by
    unfold Store.finishReload
    rw [h, if_neg Bool.false_ne_true]
    split
    · exact ⟨_, _, rfl⟩
    · exact ⟨_, _, rfl⟩
  unfold finishReload
  rw [StateT.run_bind, StateT.run_get, pure_bind, StateT.run_bind, onStore_run, pure_bind, hstep]
  exact ⟨event, _, rfl⟩

/-- A reload ends with a failure if all loads have failed and there is nothing else. -/
theorem finishReload_eq_error_iff (e : ConfigError) :
    ((finishReload number loaded).run l).1 = .error e ↔
      e = .noSources l.setup.providers.length ∧
        Provider.allFailed l.setup.providers loaded = true ∧ l.store.fixed = [] := by
  rw [← List.isEmpty_iff, ← Bool.and_eq_true]
  cases h : Provider.allFailed l.setup.providers loaded && l.store.fixed.isEmpty with
  | true =>
    rw [finishReload_of_fails number h]
    exact ⟨fun h => ⟨(Except.error.inj h).symm, rfl⟩, fun h => congrArg _ h.1.symm⟩
  | false =>
    obtain ⟨event, l', hrun⟩ := finishReload_of_not_fails number h
    rw [hrun]
    exact ⟨fun h => (by cases h), fun h => (by cases h.2)⟩

/-- Nothing has happened then. -/
theorem finishReload_unchanged {l : Live} {loaded : Loaded} {e : ConfigError}
    (h : ((finishReload number loaded).run l).1 = .error e) :
    ((finishReload number loaded).run l).2 = l := by
  obtain ⟨-, hfailed, hfixed⟩ := (finishReload_eq_error_iff l number loaded e).1 h
  rw [finishReload_of_fails number (Bool.and_eq_true_iff.2 ⟨hfailed, List.isEmpty_iff.2 hfixed⟩)]
  rfl

/-! ### With and without a reload -/

/-- The context where the reload `n` is not made. -/
def without (n : Nat) (l : Live) : Live := { l with setup := l.setup.skipping n }

/-- The context where the reload `n` was made besides, and came to nothing. -/
def beside (setup : Setup) (n : Nat) (l : Live) : Live :=
  { l with
    setup
    store := l.store.renumber (l.store.reloads + 1) (numberBeside n l.store.publishedReload) }

/-- Whether a context in which the reload `n` was made goes on, whatever happens, like one in which
it was not. -/
structure GoesOnLike (setup : Setup) (n : Nat) (l l₀ : Live) : Prop where
  state : l = l₀.beside setup n
  moves : ∀ moves, (makeAll (moves.map (·.renumber (numberBeside n)))).run l =
    pure (List.zipWith (Answer.renumber (numberBeside n)) moves ((makeAll moves).run l₀).1,
      ((makeAll moves).run l₀).2.beside setup n)

/-- The reload that the load of a provider asks for, if it does. -/
def nestedReload (number : Nat) (p : Provider) : StateM Live Unit := do
  if number ∈ p.nested then record (.nestedReload (← reload))

end Live

namespace Renumbering

open Live

/-- The numbers of a context whose next reload is made, beside one where it is not. -/
def skipping (l : Live) (files : FileTree → Prop) : Renumbering where
  number := numberBeside (l.store.reloads + 1)
  providers := l.setup.providers
  setup := l.setup.skipping (l.store.reloads + 1)
  hasFixed := !l.store.fixed.isEmpty
  files := files
  isOrderly := False
  lt_iff := numberBeside_lt_iff (l.store.reloads + 1)
  alike := by
    refine List.forall₂_map_right_iff.2 (List.forall₂_same.2 fun p _ => ?_)
    exact p.renumbered_skipping (l.store.reloads + 1)

/-- All moves are allowed. -/
theorem allows_skipping (l : Live) (k : Nat) (moves : List Move) :
    ∀ move ∈ moves, (skipping l fun _ => True).Allows k move :=
  fun _ _ => ⟨fun _ _ => trivial, False.elim⟩

variable {l m m₀ : Live} {files : FileTree → Prop}

theorem relates_skipping (h : l.store.publishedReload ≤ l.store.reloads) (hfiles : files l.files) :
    (skipping l files).Relates l.store.reloads { l with store := l.store.startReload.2 }
      (l.without (l.store.reloads + 1)) where
  lifted := by
    refine ⟨l.store.reloads + 1, ?_, fun i => ?_⟩
    · have hpublished : numberBeside (l.store.reloads + 1) l.store.publishedReload =
          l.store.publishedReload := numberBeside_of_lt (Nat.lt_succ_of_le h)
      unfold lift
      dsimp only [skipping, without]
      rw [hpublished]
      rfl
    · show numberBeside (l.store.reloads + 1) (l.store.reloads + (i + 1)) = _
      rw [numberBeside_of_le (by omega)]
      omega
  setup := rfl
  files := hfiles
  hasFixed := (Bool.not_not _).symm
  started := Nat.le_refl _
  orderly ho := ho.elim

namespace Relates

variable (h : (skipping l files).Relates l.store.reloads m m₀)
include h

theorem eq_beside : m = m₀.beside l.setup (l.store.reloads + 1) := by
  obtain ⟨n, rfl, hn⟩ := h.lifted
  have hnext := hn 0
  have hstarted := h.started
  have hcount : numberBeside (l.store.reloads + 1) (m₀.store.reloads + (0 + 1)) =
      m₀.store.reloads + 1 + 1 := numberBeside_of_le (by omega)
  have hreloads : n = m₀.store.reloads + 1 := by
    have heq := hcount.symm.trans hnext
    omega
  unfold lift beside
  rw [h.setup, hreloads]
  rfl

/-- Contexts that differ in that reload alone go on alike. -/
theorem goesOnLike : GoesOnLike l.setup (l.store.reloads + 1) m m₀ where
  state := h.eq_beside
  moves moves := by
    have hall : (skipping l fun _ => True).Relates l.store.reloads m m₀ :=
      { h with files := trivial }
    obtain ⟨as, bs, t, t₀, hrun, hrun₀, has, ht⟩ :=
      coupled_makeAll (allows_skipping l _ moves) m m₀ hall
    rw [hrun₀]
    show _ = pure (List.zipWith (Answer.renumber (numberBeside (l.store.reloads + 1))) moves bs,
      t₀.beside l.setup (l.store.reloads + 1))
    rw [← ht.eq_beside]
    exact hrun.trans (congrArg _ (Prod.ext has rfl))

theorem fixed_eq_nil_iff : m.store.fixed = [] ↔ l.store.fixed = [] := by
  have hfixed : m₀.store.fixed.isEmpty = l.store.fixed.isEmpty := h.hasFixed.trans (Bool.not_not _)
  rw [h.eq_beside, ← List.isEmpty_iff, ← List.isEmpty_iff, ← hfixed]
  rfl

theorem setup_eq : m.setup = l.setup := by
  rw [h.eq_beside]
  rfl

end Relates

/-- The reloads that loads ask for end alike, whether the reload around them is made or not. -/
theorem coupled_nestedReload (l : Live) (files : FileTree → Prop) {asking : List Nat}
    (hasking : asking = l.setup.providers.flatMap (·.nested)) :
    Coupled ((skipping l files).Relates l.store.reloads) Eq
      (l.setup.providers.forM (nestedWithin asking.length (l.store.reloads + 1)))
      (l.setup.providers.forM (nestedReload (l.store.reloads + 1))) := by
  refine .forM_of_forall₂ (List.forall₂_same.2 fun _ _ => rfl) ?_
  rintro p hp _ - rfl
  unfold nestedReload
  by_cases hmem : l.store.reloads + 1 ∈ p.nested
  · have hin : l.store.reloads + 1 ∈ asking := hasking ▸ List.mem_flatMap_of_mem hp hmem
    have hcount := countP_lt_of_mem hin (Nat.le_refl _) (Nat.lt_add_one _)
    have hlength : asking.countP (l.store.reloads + 1 ≤ ·) ≤ asking.length := List.countP_le_length
    obtain ⟨rest, hrest⟩ : ∃ rest, asking.length = rest + 1 := ⟨asking.length - 1, by omega⟩
    have hnext : (skipping l files).number (l.store.reloads + 1) = l.store.reloads + 1 + 1 :=
      numberBeside_of_le (Nat.le_refl _)
    rw [hrest, nestedWithin_of_mem hmem, if_pos hmem]
    refine (coupled_reloadWithin_reload ?_).bind ?_
    · show (l.setup.providers.flatMap (·.nested)).countP _ ≤ rest
      rw [hnext, ← hasking]
      omega
    · rintro outcome _ rfl
      exact coupled_record _
  · rw [nestedWithin_of_notMem hmem, if_neg hmem]
    exact .pure rfl

/-- A reload ends in a context that differs by it alone from the one where it is not made. -/
theorem exists_end_of_reload (h : l.store.publishedReload ≤ l.store.reloads) :
    ∃ m m₀, (skipping l (· = l.files)).Relates l.store.reloads m m₀ ∧
      (l.setup.providers.forM (nestedReload (l.store.reloads + 1))).run
        (l.without (l.store.reloads + 1)) = pure ((), m₀) ∧
      reload.run l = (finishReload (l.store.reloads + 1)
        (l.setup.load (l.store.reloads + 1) l.files)).run m := by
  obtain ⟨_, _, m, m₀, hrun, hrun₀, -, hm⟩ :=
    coupled_nestedReload l (· = l.files) rfl _ _ (relates_skipping h rfl)
  have hnumber : l.store.startReload.1 = l.store.reloads + 1 := rfl
  have hfiles : m.files = l.files := by
    rw [hm.eq_beside]
    exact hm.files
  refine ⟨m, m₀, hm, hrun₀, ?_⟩
  unfold reload
  rw [StateT.run_bind, StateT.run_get, pure_bind, reloadWithin_eq, StateT.run_bind, onStore_run,
    pure_bind, StateT.run_bind, StateT.run_get, pure_bind, StateT.run_bind]
  dsimp only
  rw [hnumber, hrun, pure_bind, StateT.run_bind, StateT.run_get, pure_bind]
  dsimp only
  rw [hm.setup_eq, hfiles]

/-- Between the start of a reload and its end, all is answered as if it had not been started. -/
theorem exists_between (h : l.store.publishedReload ≤ l.store.reloads) (between : List Move) :
    ∃ answers₀ m m₀, (skipping l fun _ => True).Relates l.store.reloads m m₀ ∧
      (makeAll between).run (l.without (l.store.reloads + 1)) = pure (answers₀, m₀) ∧
      (makeAll (.call .startReload ::
        between.map (·.renumber (numberBeside (l.store.reloads + 1))))).run l =
        pure (.number (l.store.reloads + 1) ::
          List.zipWith (Answer.renumber (numberBeside (l.store.reloads + 1))) between answers₀,
          m) := by
  obtain ⟨_, answers₀, m, m₀, hrun, hrun₀, rfl, hm⟩ :=
    coupled_makeAll (allows_skipping l _ between) _ _ (relates_skipping h trivial)
  refine ⟨answers₀, m, m₀, hm, hrun₀, ?_⟩
  have hstart : (make (.call .startReload)).run l =
      pure (.number (l.store.reloads + 1), { l with store := l.store.startReload.2 }) := rfl
  exact makeAll_cons_run hstart hrun

end Renumbering

namespace Live

open Renumbering

/-- **A reload that fails leaves no trace.** A build fails, and so does the end of a reload,
overtaken or not, if there are providers, all of them fail in the load and there are no other
sources. Then nothing is published, kept, written or told. Whatever has happened between the start
of the reload and its end, and whatever happens from then on, is answered as if the reload had not
been made, and so it is if the reload is made at once, but for the reloads that its own loads
asked for. -/
theorem reload_leaves_no_trace {l : Live} (h : l.Reached) :
    let n := l.store.reloads + 1
    (∀ (b : Builder) files e, b.build files = .error e ↔
      e = .noSources b.providers.length ∧ b.setup.LoadFails 0 files ∧ b.sources = []) ∧
    (∀ number files e,
      ((finishReload number (l.setup.load number files)).run l).1 = .error e ↔
        e = .noSources l.setup.providers.length ∧ l.setup.LoadFails number files ∧
          l.store.fixed = []) ∧
    (∀ number loaded e, ((finishReload number loaded).run l).1 = .error e →
      ((finishReload number loaded).run l).2 = l) ∧
    (∀ between loaded e answers m,
      (makeAll (.call .startReload :: between.map (·.renumber (numberBeside n)))).run l =
        pure (answers, m) →
      ((finishReload n loaded).run m).1 = .error e →
        ∃ answers₀ m₀, (makeAll between).run (l.without n) = pure (answers₀, m₀) ∧
          answers = .number n ::
            List.zipWith (Answer.renumber (numberBeside n)) between answers₀ ∧
          GoesOnLike l.setup n ((finishReload n loaded).run m).2 m₀) ∧
    (∀ e, (reload.run l).1 = .error e ↔
      e = .noSources l.setup.providers.length ∧ l.setup.LoadFails n l.files ∧
        l.store.fixed = []) ∧
    (∀ e, (reload.run l).1 = .error e →
      GoesOnLike l.setup n (reload.run l).2
        ((l.setup.providers.forM (nestedReload n)).run (l.without n)).2) := by
  have hle := h.publishedReload_le
  obtain ⟨m, m₀, hm, hnested, hreload⟩ := exists_end_of_reload hle
  dsimp only
  refine ⟨Builder.build_eq_error_iff, fun number files e => ?_, fun number loaded e =>
    finishReload_unchanged number, fun between loaded e answers m hrun he => ?_, fun e => ?_,
    fun e he => ?_⟩
  · rw [finishReload_eq_error_iff, Setup.allFailed_load]
  · obtain ⟨answers₀, m', m₀, hm, hrun₀, hrun'⟩ := exists_between hle between
    obtain ⟨rfl, rfl⟩ := Prod.mk.inj (hrun'.symm.trans hrun)
    refine ⟨answers₀, m₀, hrun₀, rfl, ?_⟩
    rw [finishReload_unchanged _ he]
    exact hm.goesOnLike
  · rw [hreload, finishReload_eq_error_iff, hm.setup_eq, Setup.allFailed_load, hm.fixed_eq_nil_iff]
  · rw [hreload] at he ⊢
    rw [finishReload_unchanged _ he, hnested]
    exact hm.goesOnLike

/-- A provider whose load behind the next one fails. -/
def wavering : Provider :=
  .inSteps "wavering" [.loaded [(Table.ofPairs "a" [("k", "0")]).toSource (.object 0)],
    .loaded [(Table.ofPairs "a" [("k", "1")]).toSource (.object 1)],
    .failed (.sourceFailed "wavering" "broken"),
    .loaded [(Table.ofPairs "a" [("k", "3")]).toSource (.object 3)]] []

/-- A context that has nothing else to read from, and whose first reload is still loading. -/
def waiting : Live where
  setup := ⟨[wavering], defaultTimeout, .ofFilters [.hideReserved], [], true⟩
  store :=
    (Store.initial [] none (Provider.loadAll [wavering] defaultTimeout 0 .empty)).startReload.2
  files := .empty

theorem reached_waiting : waiting.Reached := by
  have hbuild : ({ providers := [wavering] } : Builder).build .empty =
      .ok (waiting.setup, .initial [] none
        (Provider.loadAll [wavering] defaultTimeout 0 .empty)) := rfl
  exact @Reached.moved _ (.built hbuild) (.call .startReload) trivial

/-- What happens while the second reload loads. -/
def interlude : List Move := [.call (.listen "ear" ["k"] false none), .call (.get "k")]

/-- What happens behind its failure: the first reload ends, and another one is made. -/
def aftermath : List Move :=
  [.call (.finishReload 1 (waiting.setup.load 1 .empty)), .call (.get "k"), .call .reload,
    .call (.get "k")]

/-- The texts that are told, and how often a listener is called. -/
def toldTexts (run : List Answer × Live) : List String × Nat :=
  (run.1.filterMap fun
    | .text text => text
    | _ => none, run.2.log.length)

/-- The second reload fails and nobody hears of it; then the first one is published, and the third,
as they are where the second one is not made. -/
theorem reload_leaves_no_trace_waiting :
    ∃ m m₀, waiting.Reached ∧
      m = ((makeAll (.call .startReload ::
        interlude.map (·.renumber (numberBeside 2)))).run waiting).2 ∧
      m₀ = ((makeAll interlude).run (waiting.without 2)).2 ∧
      ((finishReload 2 (waiting.setup.load 2 .empty)).run m).1 = .error (.noSources 1) ∧
      GoesOnLike waiting.setup 2 ((finishReload 2 (waiting.setup.load 2 .empty)).run m).2 m₀ ∧
      toldTexts ((makeAll (aftermath.map (·.renumber (numberBeside 2)))).run m) =
        (["1", "3"], 2) ∧
      toldTexts ((makeAll aftermath).run m₀) = (["1", "3"], 2) := by
  have hfails : attempted? ((finishReload 2 (waiting.setup.load 2 .empty)).run
      ((makeAll (.call .startReload ::
        interlude.map (·.renumber (numberBeside 2)))).run waiting).2).1 = some 1 := by
    decide +kernel
  obtain ⟨-, -, -, hbetween, -⟩ := reload_leaves_no_trace reached_waiting
  obtain ⟨answers₀, m₀, hrun₀, -, hlike⟩ := hbetween interlude (waiting.setup.load 2 .empty) _ _ _
    rfl (eq_of_attempted? hfails)
  obtain rfl : _ = m₀ := congrArg Prod.snd hrun₀
  exact ⟨_, _, reached_waiting, rfl, rfl, eq_of_attempted? hfails, hlike, by decide +kernel,
    by decide +kernel⟩

end Live

end LayeredConfig
