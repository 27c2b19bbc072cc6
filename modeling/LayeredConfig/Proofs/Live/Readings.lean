import LayeredConfig.Proofs.Live.Calls
import LayeredConfig.Proofs.Live.Reading
import LayeredConfig.Proofs.View.Reading

/-! # A program that only reads

A context whose hook is not armed is not changed by being read, but for the snapshot that it keeps.
So a program that builds a context and then only reads it is told what the view of the context gives
for the set of sources that was published first (`told_readings`). -/

namespace LayeredConfig

/-- What may be read of a context. -/
inductive Reading
  | value (key : String)
  | text (key : String)
  | snapshot
  | sources

namespace Reading

/-- The call that reads. -/
def call : Reading → Call
  | value key => .getValue key
  | text key => .get key
  | snapshot => .properties
  | sources => .sources

/-- What is read of a set of sources. -/
def answer (v : View Id) (set : SourceSet) : Reading → Answer
  | value key => .value (v.getValue set key).run
  | text key => .text (v.get set key).run
  | snapshot => .snapshot (v.build set).run
  | sources => .sources set.summary

/-- All but the list of sources is read alike through views that read alike. -/
theorem answer_congr {v w : View Id} {a b : SourceSet} (hlookup : v.lookup a = w.lookup b)
    (hevaluator : v.evaluator = w.evaluator) (hmask : v.mask = w.mask)
    (hvisible : v.visible a = w.visible b) (hversion : a.version = b.version) {reading : Reading}
    (h : reading ≠ .sources) : reading.answer v a = reading.answer w b := by
  cases reading with
  | value key => simp only [answer, View.getValue_congr hlookup hevaluator hmask]
  | text key => simp only [answer, View.get_congr hlookup hevaluator hmask]
  | snapshot =>
    simp only [answer, View.build_congr hlookup hevaluator hmask hvisible hversion]
  | sources => exact absurd rfl h

end Reading

/-- Contexts whose hook is not armed, which stay as they are. -/
def Passage.unarmed : Passage Live where
  holds l := l.armed = none
  leads a b := b = a
  refl _ := rfl
  trans hab hbc := hbc.trans hab
  keeps ha hab := by
    rw [hab]
    exact ha

namespace Live

variable {l : Live} {write : Write}

/-- A context at work with a hook that is not armed, and a snapshot, if one is kept, of the set that
is published. -/
structure AtRest (l : Live) : Prop where
  armed : l.armed = none
  kept : ∀ kept, l.store.cached = some kept → kept = (l.quiet.build l.store.published).run

theorem gives_atHook_unarmed : Passage.unarmed.Gives (atHook write) (.ok ()) :=
  fun l h => ⟨l, atHook_run_of_none h, rfl⟩

theorem follows_view_unarmed (write : Write) (l : Live) : (l.view write).Follows .unarmed l.quiet :=
  follows_view gives_atHook_unarmed l

theorem getValueBy_run_unarmed (h : l.armed = none) (key : String) :
    (getValueBy write key).run l = pure ((l.quiet.getValue l.store.published key).run, l) := by
  obtain ⟨l', hrun, rfl⟩ := (follows_view_unarmed write l).gives_getValue l.store.published key l h
  unfold getValueBy
  rw [StateT.run_bind, StateT.run_get, pure_bind]
  exact hrun

theorem getBy_run_unarmed (h : l.armed = none) (key : String) :
    (getBy write key).run l = pure ((l.quiet.get l.store.published key).run, l) := by
  obtain ⟨l', hrun, rfl⟩ := (follows_view_unarmed write l).gives_get l.store.published key l h
  unfold getBy
  rw [StateT.run_bind, StateT.run_get, pure_bind]
  exact hrun

/-- Where the hook is not armed reading the snapshot is a step of the store. -/
theorem snapshotBy_run_unarmed (h : l.armed = none) :
    (snapshotBy write).run l =
      pure (l.store.snapshot l.quiet, { l with store := l.store.seen l.quiet }) := by
  obtain ⟨l', hbuild, rfl⟩ := (follows_view_unarmed write l).gives_build l.store.published l h
  exact snapshotBy_run_of_still hbuild

namespace AtRest

theorem snapshot_eq (h : l.AtRest) :
    l.store.snapshot l.quiet = (l.quiet.build l.store.published).run := by
  cases hcurrent : l.store.current? with
  | some kept =>
    rw [Store.snapshot_of_current? hcurrent]
    exact h.kept kept (Store.eq_of_current? hcurrent).1
  | none => rw [Store.snapshot_of_not_current hcurrent]

theorem seen (h : l.AtRest) : AtRest { l with store := l.store.seen l.quiet } := by
  refine ⟨h.armed, fun kept hkept => ?_⟩
  have hquiet : quiet { l with store := l.store.seen l.quiet } = l.quiet := rfl
  rw [hquiet]
  dsimp only at hkept ⊢
  rw [Store.published_seen]
  rw [Store.seen_eq_keep, Store.keep] at hkept
  cases hcached : l.store.cached with
  | none =>
    rw [hcached] at hkept
    exact (Option.some.inj hkept).symm
  | some old =>
    rw [hcached] at hkept
    dsimp only at hkept
    split at hkept
    · exact h.kept kept hkept
    · exact (Option.some.inj hkept).symm

/-- A reading tells what the view gives for the published set, and leaves that set and the view. -/
theorem perform_reading (h : l.AtRest) (reading : Reading) :
    ∃ l', (perform reading.call).run l =
        pure (reading.answer l.quiet l.store.published, l') ∧ l'.AtRest ∧
      l'.quiet = l.quiet ∧ l'.store.published = l.store.published ∧ l'.log = l.log := by
  cases reading with
  | value key =>
    have hrun : (getValue key).run l = _ := getValueBy_run_unarmed h.armed key
    refine ⟨l, ?_, h, rfl, rfl, rfl⟩
    show (getValue key >>= fun value => pure (Answer.value value)).run l = _
    rw [StateT.run_bind, hrun]
    rfl
  | text key =>
    have hrun : (read key).run l = _ := getBy_run_unarmed h.armed key
    refine ⟨l, ?_, h, rfl, rfl, rfl⟩
    show (read key >>= fun text => pure (Answer.text text)).run l = _
    rw [StateT.run_bind, hrun]
    rfl
  | snapshot =>
    have hrun : snapshot.run l = _ := snapshotBy_run_unarmed h.armed
    refine ⟨_, ?_, h.seen, rfl, Store.published_seen _ _, rfl⟩
    show (snapshot >>= fun built => pure (Answer.snapshot built)).run l = _
    rw [StateT.run_bind, hrun, h.snapshot_eq]
    rfl
  | sources => exact ⟨l, rfl, h, rfl, rfl, rfl⟩

theorem performAll_readings (h : l.AtRest) (readings : List Reading) :
    ∃ l', (performAll (readings.map Reading.call)).run l =
        pure (readings.map (Reading.answer l.quiet l.store.published), l') ∧ l'.log = l.log := by
  unfold performAll
  induction readings generalizing l with
  | nil => exact ⟨l, rfl, rfl⟩
  | cons reading rest ih =>
    obtain ⟨l₁, hfirst, hl₁, hquiet, hpublished, hlog⟩ := h.perform_reading reading
    obtain ⟨l₂, hrest, hlog'⟩ := ih hl₁
    refine ⟨l₂, ?_, hlog'.trans hlog⟩
    rw [hquiet, hpublished] at hrest
    rw [List.map_cons, List.mapM_cons, StateT.run_bind, hfirst, pure_bind, StateT.run_bind, hrest]
    rfl

end AtRest

end Live

namespace Builder

/-- The sources of a context when it is built: those that were given to it, and those loaded. -/
def firstSources (b : Builder) (files : FileTree) : List Source :=
  b.sources ++ (b.setup.load 0 files).sources

/-- The set of sources that is published first. -/
def firstSet (b : Builder) (files : FileTree) : SourceSet := .ofSources (b.firstSources files) 1

/-- How a context is read once it is built. -/
def quiet (b : Builder) (files : FileTree) : View Id := b.setup.quiet files

/-- The filters of a context, that which hides reserved keys among them. -/
def stages (b : Builder) : List Filter :=
  b.filters ++ if b.hidesReserved then [Filter.hideReserved] else []

theorem pipeline_quiet (b : Builder) (files : FileTree) :
    (b.quiet files).pipeline = .ofFilters b.stages := rfl

/-- Whether there is nothing to build a context from. -/
def isStarved (b : Builder) (files : FileTree) : Bool :=
  Provider.allFailed b.providers (b.setup.load 0 files) && b.sources.isEmpty

/-- What a program is told that only reads: why there is no context, or what its view gives for the
set of sources that is published first. -/
theorem told_readings (b : Builder) (files : FileTree) (readings : List Reading) :
    b.told files (readings.map Reading.call) =
      if b.isStarved files then .error (.noSources b.providers.length)
      else .ok (readings.map (Reading.answer (b.quiet files) (b.firstSet files)), []) := by
  unfold told build isStarved
  dsimp only
  split
  · rfl
  · have hrest : Live.AtRest {
        setup := b.setup
        store := .initial b.sources b.writable (b.setup.load 0 files)
        files } := ⟨rfl, nofun⟩
    obtain ⟨l', hrun, hlog⟩ := hrest.performAll_readings readings
    simp only [Except.map, hrun]
    exact congrArg (fun log => Except.ok (_, log)) hlog

end Builder

end LayeredConfig
