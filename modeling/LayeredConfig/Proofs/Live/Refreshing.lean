import LayeredConfig.Proofs.Live.Undisturbed
import LayeredConfig.Proofs.Store.Anonymity
import LayeredConfig.Proofs.Store.Registration

/-! # Refreshing and reloading

A context without providers has nothing to load, so a reload reads the same sources again as a
refresh does. The two lead to the same list of sources exactly if every source still has the ordinal
it was registered with, and then everything is read alike (`readsLike_reload_iff`). An edit in place
that states another ordinal is seen by the reload, which registers the sources anew, and not by the
refresh (`not_readsLike_restated`). Only the reload tells the listeners, so they must not write. -/

namespace LayeredConfig

namespace Live.Undisturbed

variable {l : Live}

/-- Without providers a reload is one step of the store. -/
theorem reload_run (h : l.Undisturbed) (hp : l.setup.providers = []) :
    ∃ l', reload.run l = pure ((l.store.reloadAlone l.quiet).1, l') ∧ l'.quiet = l.quiet ∧
      l'.store = (l.store.reloadAlone l.quiet).2 := by
  have hload (number : Nat) : l.setup.load number l.files = ⟨[], 0⟩ := by
    unfold Setup.load
    rw [hp]
    rfl
  obtain ⟨l', hrun, hrests⟩ := @told_run _ commit (h.withStore l.store.startReload.2)
    (Store.finishReload l.quiet l.setup.providers l.store.startReload.1 ⟨[], 0⟩)
  rw [hp] at hrun hrests
  refine ⟨l', ?_, hrests.quiet, hrests.store⟩
  unfold reload
  rw [StateT.run_bind, StateT.run_get, pure_bind, hp]
  show (reloadWithin 0).run l = _
  unfold reloadWithin
  dsimp only
  rw [StateT.run_bind, onStore_run, pure_bind, StateT.run_bind, StateT.run_get, pure_bind,
    finishReload_eq_announced]
  dsimp only
  rw [hload, hp]
  exact hrun

end Live.Undisturbed

namespace Store

variable {fixed : List Source} {writable : Option Writable} {s : Store}

/-- **A refresh reads like a reload while ordinals stand.** Let a context without providers be given
sources of which none is a copy, and let what has the identity of the writable one have its name.
Whatever has been committed, refreshed, reloaded and edited in place since then, a reload succeeds,
and the sources behind it are those behind a refresh, with the same ordinals, exactly if every
registered source still has the ordinal it was registered with. Then the value and the text of every
key and the snapshot are the same too, versions aside. If neither a hook nor a listener writes on the
way, this is what comes of refreshing and reloading a context at work. -/
theorem readsLike_reload_iff
    (hnamed : ∀ w, writable = some w → ∀ u ∈ fixed, u.id = w.id → u.name = w.table.name)
    (hcopies : ∀ u ∈ fixed, ∀ n, u.id ≠ .copy n)
    (reached : Relation.ReflTransGen MovesAlone (.initial fixed writable ⟨[], 0⟩) s)
    (v : View Id) :
    (∃ event, (s.reloadAlone v).1 = .ok event) ∧
    (s.refresh.published.summary = (s.reloadAlone v).2.published.summary ↔
      ∀ r ∈ s.published.entries, r.IsCurrent) ∧
    ((∀ r ∈ s.published.entries, r.IsCurrent) → s.refresh.ReadsLike v (s.reloadAlone v).2) ∧
    ∀ l : Live, l.Undisturbed → l.setup.providers = [] → l.quiet = v → l.store = s →
      Live.refresh.run l = pure (s.version + 1, { l with store := s.refresh }) ∧
      ∃ l', Live.reload.run l = pure ((s.reloadAlone v).1, l') ∧ l'.quiet = v ∧
        l'.store = (s.reloadAlone v).2 := by
  have h : s.Registers := (Registers.initial hnamed hcopies).reaches reached
  obtain ⟨hevent, -, hwritable, hsnapshot⟩ := h.reloadAlone_cases v
  refine ⟨hevent, ⟨h.isCurrent_of_summary_eq, fun hcurrent => ?_⟩, fun hcurrent => ?_, ?_⟩
  · rw [h.published_reloadAlone hcurrent]
  · have hpublished := h.published_reloadAlone hcurrent v
    refine .of_anonymous ?_ ?_ (snapshot_of_uncached rfl v) hsnapshot
    · rw [hwritable]
      rfl
    · rw [hpublished]
  · rintro l hl hp rfl rfl
    obtain ⟨l', hrun, hquiet, hstore⟩ := hl.reload_run hp
    exact ⟨rfl, l', hrun, hquiet, hstore⟩

/-- A table that is written to, beside one that is shared with the program. -/
def runtimeTable : Writable := ⟨.object 1, .ofPairs "runtime" [("k", "1")]⟩

def sharedTable : Source := (Table.ofPairs "shared" [("k", "0")]).toSource (.object 0)

/-- The context once the one table has been written to, with an ordinal of its own, and the other one
has been edited in place. -/
def reworked : Store :=
  ((Store.initial [sharedTable, runtimeTable.toSource] (some runtimeTable) ⟨[], 0⟩).commit
    Builder.plainView [.put ordinalKey "-7", .put "k" "2"]).2.edited
      ⟨.object 0, .ofPairs "shared" [("k", "3"), ("j", "4")]⟩

/-- The same, with nobody who writes on a change. -/
def reworkedLive : Live where
  setup := ⟨[], defaultTimeout, .ofFilters [], [], true⟩
  store := reworked
  files := .empty

/-- What was written was registered again, so a reload of the context reads like a refresh. -/
theorem readsLike_reload_reworked :
    Relation.ReflTransGen MovesAlone
      (.initial [sharedTable, runtimeTable.toSource] (some runtimeTable) ⟨[], 0⟩) reworked ∧
    (∀ r ∈ reworked.published.entries, r.IsCurrent) ∧
    reworked.refresh.published.summary = [("runtime", -7), ("shared", 0)] ∧
    (Builder.plainView.get reworked.refresh.published "k").run = some "3" ∧
    ∃ event l', Live.reload.run reworkedLive = pure (.ok event, l') ∧
      reworked.refresh.ReadsLike Builder.plainView l'.store := by
  have reached : Relation.ReflTransGen MovesAlone
      (.initial [sharedTable, runtimeTable.toSource] (some runtimeTable) ⟨[], 0⟩) reworked :=
    (Relation.ReflTransGen.single (.commit _ _ _)).tail
      (.edit ⟨by decide, by unfold SourceSet.KeepsName; decide +kernel⟩)
  have hcurrent : ∀ r ∈ reworked.published.entries, r.IsCurrent := by decide +kernel
  have hnamed : ∀ w, some runtimeTable = some w → ∀ u ∈ [sharedTable, runtimeTable.toSource],
      u.id = w.id → u.name = w.table.name := by
    rintro w ⟨⟩
    decide
  have hcopies : ∀ u ∈ [sharedTable, runtimeTable.toSource], ∀ n, u.id ≠ .copy n := by
    intro u hu n
    simp only [List.mem_cons, List.not_mem_nil, or_false] at hu
    rcases hu with rfl | rfl <;> exact Identity.noConfusion
  obtain ⟨⟨event, hevent⟩, -, hreads, hlive⟩ :=
    readsLike_reload_iff hnamed hcopies reached Builder.plainView
  obtain ⟨-, l', hrun, -, hstore⟩ := hlive reworkedLive ⟨rfl, rfl⟩ rfl rfl rfl
  refine ⟨reached, hcurrent, by decide +kernel, by decide +kernel, event, l', ?_, ?_⟩
  · rw [← hevent]
    exact hrun
  · rw [hstore]
    exact hreads hcurrent

/-- Two tables that a program shares with a context, the second one above the first. -/
def ranked : List Source :=
  [(Table.ofPairs "m" [("k", "1")]).toSource (.object 0),
    ((Table.ofPairs "z" [("k", "z")]).withOrdinal 5).toSource (.object 1)]

/-- The context after the first table has been edited to state an ordinal above the second. -/
def restated : Store :=
  (Store.initial ranked none ⟨[], 0⟩).edited
    ⟨.object 0, .ofPairs "m" [("k", "1"), (ordinalKey, "9")]⟩

/-- The edit leads there: the name and the identity of the table stay. -/
theorem reached_restated :
    Relation.ReflTransGen MovesAlone (.initial ranked none ⟨[], 0⟩) restated :=
  .single (.edit ⟨by decide, by unfold SourceSet.KeepsName; decide +kernel⟩)

/-- A context with a listener that writes when it first hears of a change, after its snapshot has been
taken and the table that is shared with the program has been edited. -/
def answering : Live where
  setup := ⟨[], defaultTimeout, .ofFilters [], [], true⟩
  store := ((Store.initial [sharedTable, runtimeTable.toSource] (some runtimeTable) ⟨[], 0⟩).seen
    Builder.plainView).edited ⟨.object 0, .ofPairs "shared" [("k", "3")]⟩
  files := .empty
  listeners := [⟨0, "echo", [], false⟩]
  nextListener := 1
  answers := [(0, .put "seen" "yes")]

/-- An ordinal that is stated in place is missed by a refresh and seen by a reload. Where no ordinal
has changed, a reload tells the listeners, which may write, and a refresh does not. -/
theorem not_readsLike_restated :
    Relation.ReflTransGen MovesAlone (.initial ranked none ⟨[], 0⟩) restated ∧
    ¬ restated.refresh.ReadsLike Builder.plainView (restated.reloadAlone Builder.plainView).2 ∧
    restated.refresh.published.summary = [("m", 0), ("z", 5)] ∧
    (restated.reloadAlone Builder.plainView).2.published.summary = [("z", 5), ("m", 9)] ∧
    (Builder.plainView.get restated.refresh.published "k").run = some "z" ∧
    (Builder.plainView.get (restated.reloadAlone Builder.plainView).2.published "k").run =
      some "1" ∧
    (∀ r ∈ answering.store.published.entries, r.IsCurrent) ∧
    (Builder.plainView.get (Live.refresh.run answering).2.store.published "seen").run = none ∧
    (Builder.plainView.get (Live.reload.run answering).2.store.published "seen").run =
      some "yes" := by
  have hrefresh : restated.refresh.published.summary = [("m", 0), ("z", 5)] := by decide +kernel
  have hreload : (restated.reloadAlone Builder.plainView).2.published.summary =
      [("z", 5), ("m", 9)] := by decide +kernel
  refine ⟨reached_restated, fun h => ?_, hrefresh, hreload, by decide +kernel, by decide +kernel,
    by decide +kernel, by decide +kernel, by decide +kernel⟩
  have hsources := h.sources
  rw [hrefresh, hreload] at hsources
  exact absurd hsources (by decide)

end Store

end LayeredConfig
