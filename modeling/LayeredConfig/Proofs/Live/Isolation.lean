import LayeredConfig.Proofs.Live.Reading

/-! # Readings among others

A reading takes the published set, looks at the kept snapshot, builds one if it must, and keeps it;
others come in between, and whenever a resolver is asked. They may commit, reload, refresh and read,
in one another and one after the other: a `World` has a context and what others will do to it, and
`properties`, `get` and `change` are the calls, which let others act in front of each access. In a
context at work it is a hook and the listeners that come in between.

What is read is what the set that was taken gives, whatever is published meanwhile
(`readings_isolated`). -/

namespace LayeredConfig

/-- A context, and what others will do to it, one turn after the other. -/
structure World where
  course : Course
  meanwhile : List (List Access)

/-- A resolver that answers after something else has happened. -/
def Resolver.delayed {m : Type → Type} [Monad m] (act : m Unit) (r : Resolver Id) : Resolver m :=
  { r with
    evaluate := fun expression scope => do
      act
      return r.evaluate expression scope }

namespace World

variable (v : View Id)

/-- The turn of the others. -/
def pass : StateM World Unit :=
  modify fun w => ⟨w.course.after v (w.meanwhile.headD []), w.meanwhile.tail⟩

/-- The view in which others have a turn whenever a resolver is asked. -/
def view : View (StateM World) :=
  ⟨v.pipeline, v.evaluator.map (Resolver.delayed (pass v)), v.mask⟩

/-- An access, in front of which others have a turn. -/
def perform (step : Course → Course) : StateM World Unit := do
  pass v
  modify fun w => { w with course := step w.course }

/-- Keeps a snapshot. -/
def keep (built : Snapshot) : StateM World Unit :=
  perform v fun c => c.moved (c.store.keep built)

/-- Reads the snapshot. -/
def properties : StateM World Snapshot :=
  Store.readSnapshot (view v) (return (← get).course.store.published)
    (do
      pass v
      return (← get).course.store.cached)
    (keep v)

/-- Reads a key with what is noted about its value. -/
def getValue (key : String) : StateM World (Option PropertyValue) := do
  (view v).getValue (← MonadState.get).course.store.published key

/-- Reads a key. -/
def get (key : String) : StateM World (Option String) := do
  (view v).get (← MonadState.get).course.store.published key

/-- Publishes, and tells what has changed. -/
def change (put : Access) : StateM World ChangeEvent := do
  let old ← properties v
  perform v fun c => c.access v put
  perform v fun c => c.access v .drop
  let new ← properties v
  return .between old new

/-- The context is sound. A world goes on by accesses, and stays as it is if others will do
nothing. -/
def passage : Passage World where
  holds w := w.course.Sound v
  leads w w' := (∃ accesses, w'.course = w.course.after v accesses) ∧ (w.meanwhile = [] → w' = w)
  refl w := ⟨⟨[], rfl⟩, fun _ => rfl⟩
  trans := by
    rintro a b c ⟨⟨as, hab⟩, ha⟩ ⟨⟨bs, hbc⟩, hb⟩
    refine ⟨⟨as ++ bs, by rw [hbc, hab, Course.after_append]⟩, fun h => ?_⟩
    rw [hb (by rw [ha h, h]), ha h]
  keeps h := by
    rintro ⟨⟨accesses, hc⟩, -⟩
    rw [hc]
    exact h.after accesses

theorem gives_pass : (passage v).Gives (pass v) () := by
  intro w _
  refine ⟨_, rfl, ⟨_, rfl⟩, fun h => ?_⟩
  obtain ⟨c, meanwhile⟩ := w
  cases h
  rfl

theorem follows_delayed (r : Resolver Id) : (r.delayed (pass v)).Follows (passage v) r where
  id := rfl
  priority := rfl
  isInChain := rfl
  evaluate expression scope :=
    Passage.Gives.bind (f := fun _ => pure (r.evaluate expression scope)) (gives_pass v) (.pure _)

theorem follows_view : (view v).Follows (passage v) v where
  pipeline := rfl
  evaluator := Evaluator.follows_map (follows_delayed v) _
  mask := rfl

/-! ### The calls -/

variable {v} {w : World}

theorem perform_run {w w₁ : World} (hpass : (pass v).run w = pure ((), w₁))
    (step : Course → Course) :
    (perform v step).run w = pure ((), ⟨step w₁.course, w₁.meanwhile⟩) := by
  unfold perform
  rw [StateT.run_bind, hpass]
  rfl

/-- Reading the snapshot gives the build of the set that was published at the call. -/
theorem properties_run (h : w.course.Sound v) :
    ∃ w' accesses, (properties v).run w = pure ((v.build w.course.store.published).run, w') ∧
      w'.course = w.course.after v accesses ∧
      (w.meanwhile = [] → w' = ⟨w.course.after v [.keep 0], []⟩) := by
  obtain ⟨w₁, hpass, ⟨as, hw₁⟩, halone₁⟩ := gives_pass v w h
  have hsound : w₁.course.Sound v := hw₁ ▸ h.after as
  have hmem : w.course.store.published ∈ w₁.course.past :=
    hw₁ ▸ (Course.past_suffix_after v w.course as).mem h.published_mem
  have hpublished : (return (← MonadState.get).course.store.published : StateM World _).run w =
      pure (w.course.store.published, w) := rfl
  have hcached : (do pass v; return (← MonadState.get).course.store.cached :
      StateM World _).run w = pure (w₁.course.store.cached, w₁) := by
    rw [StateT.run_bind, hpass]
    rfl
  unfold properties
  by_cases hk : ∃ kept, w₁.course.store.cached = some kept ∧
      kept.version = w.course.store.published.version
  · -- what is kept by now is of the version of the call, so it is the build of the same set
    obtain ⟨kept, hkept, hv⟩ := hk
    have hbuilt := hsound.kept_eq_build hkept hmem hv
    refine ⟨w₁, as, ?_, hw₁, fun hm => ?_⟩
    · rw [← hbuilt]
      exact Store.readSnapshot_of_kept hpublished hcached hkept hv
    · rw [halone₁ hm] at hkept ⊢
      show w = ⟨w.course.access v (.keep 0), []⟩
      rw [← Course.moved_seen h, Store.seen_eq_keep, ← hbuilt,
        Store.keep_eq_self hkept (Nat.le_refl _), Course.moved_self, ← hm]
  · obtain ⟨w₂, hbuild, ⟨bs, hw₂⟩, halone₂⟩ :=
      (follows_view v).gives_build w.course.store.published w₁ hsound
    have hsound₂ : w₂.course.Sound v := hw₂ ▸ hsound.after bs
    obtain ⟨w₃, hpass₃, ⟨cs, hw₃⟩, halone₃⟩ := gives_pass v w₂ hsound₂
    have hmem₃ : w.course.store.published ∈ w₃.course.past := by
      rw [hw₃, hw₂]
      exact (Course.past_suffix_after v _ cs).mem ((Course.past_suffix_after v _ bs).mem hmem)
    obtain ⟨age, hage⟩ := Course.exists_access_keep v hmem₃
    have hkeep : (keep v (v.build w.course.store.published).run).run w₂ =
        pure ((), ⟨w₃.course.access v (.keep age), w₃.meanwhile⟩) := by
      rw [hage]
      exact perform_run hpass₃ _
    have hread := Store.readSnapshot_of_built hpublished hcached
      (fun kept hkept hv => hk ⟨kept, hkept, hv⟩) hbuild hkeep
    refine ⟨_, as ++ bs ++ cs ++ [.keep age], hread, ?_, fun hm => ?_⟩
    · rw [Course.after_append, Course.after_append, Course.after_append, ← hw₁, ← hw₂, ← hw₃]
      rfl
    · have h₁ := halone₁ hm
      have h₂ := (halone₂ (by rw [h₁, hm])).trans h₁
      have h₃ := (halone₃ (by rw [h₂, hm])).trans h₂
      show _ = (⟨w.course.access v (.keep 0), []⟩ : World)
      rw [hage, h₃, ← Course.moved_seen h, Store.seen_eq_keep, hm]

theorem getValue_run (h : w.course.Sound v) (key : String) :
    ∃ w' accesses, (getValue v key).run w =
        pure ((v.getValue w.course.store.published key).run, w') ∧
      w'.course = w.course.after v accesses := by
  obtain ⟨w', hget, ⟨as, hw'⟩, -⟩ :=
    (follows_view v).gives_getValue w.course.store.published key w h
  refine ⟨w', as, ?_, hw'⟩
  unfold getValue
  rw [StateT.run_bind, StateT.run_get, pure_bind]
  exact hget

theorem get_run (h : w.course.Sound v) (key : String) :
    ∃ w' accesses, (get v key).run w = pure ((v.get w.course.store.published key).run, w') ∧
      w'.course = w.course.after v accesses := by
  obtain ⟨w', hget, ⟨as, hw'⟩, -⟩ := (follows_view v).gives_get w.course.store.published key w h
  refine ⟨w', as, ?_, hw'⟩
  unfold get
  rw [StateT.run_bind, StateT.run_get, pure_bind]
  exact hget

/-- A change tells of the version of the call, and of one that is not newer than what it leaves
behind. Without others it is the accesses that it is made of. -/
theorem change_run (h : w.course.Sound v) (put : Access) :
    ∃ w' accesses event, (change v put).run w = pure (event, w') ∧
      w'.course = w.course.after v accesses ∧ event.oldVersion = w.course.store.version ∧
      event.newVersion ≤ w'.course.store.version ∧
      (put.Publishes w.course.store → event.oldVersion < event.newVersion) ∧
      (w.meanwhile = [] → w' = ⟨w.course.after v [.keep 0, put, .drop, .keep 0], []⟩ ∧
        event = .between (v.build w.course.store.published).run
          (v.build w'.course.store.published).run) := by
  obtain ⟨w₁, as, hold, hw₁, halone₁⟩ := properties_run h
  have hsound₁ : w₁.course.Sound v := hw₁ ▸ h.after as
  obtain ⟨w₂, hpass₂, ⟨bs, hw₂⟩, halone₂⟩ := gives_pass v w₁ hsound₁
  have hsound₂ : (w₂.course.access v put).Sound v := (hw₂ ▸ hsound₁.after bs).access put
  obtain ⟨w₃, hpass₃, ⟨cs, hw₃⟩, halone₃⟩ :=
    gives_pass v ⟨w₂.course.access v put, w₂.meanwhile⟩ hsound₂
  have hcourse : (w₃.course.access v .drop) =
      w.course.after v (as ++ bs ++ [put] ++ cs ++ [.drop]) := by
    simp only [Course.after_append, ← hw₁, ← hw₂]
    rw [hw₃]
    rfl
  have hsound : (w₃.course.access v .drop).Sound v := (hw₃ ▸ hsound₂.after cs).access .drop
  obtain ⟨w₄, ds, hnew, hw₄, halone₄⟩ :=
    properties_run (w := ⟨w₃.course.access v .drop, w₃.meanwhile⟩) hsound
  refine ⟨w₄, as ++ bs ++ [put] ++ cs ++ [.drop] ++ ds,
    .between (v.build w.course.store.published).run
      (v.build (w₃.course.access v .drop).store.published).run, ?_, ?_, rfl, ?_, ?_, ?_⟩
  · unfold change
    rw [StateT.run_bind, hold, pure_bind, StateT.run_bind, perform_run hpass₂, pure_bind,
      StateT.run_bind, perform_run hpass₃, pure_bind, StateT.run_bind, hnew]
    rfl
  · rw [Course.after_append, ← hcourse]
    exact hw₄
  · rw [hw₄]
    exact Course.version_le_after v _ ds
  · intro hp
    have hp₂ : put.Publishes w₂.course.store := by
      rw [hw₂, hw₁, ← Course.after_append]
      exact Course.publishes_after v hp _
    calc w.course.store.version
        ≤ w₂.course.store.version := by
          rw [hw₂, hw₁, ← Course.after_append]
          exact Course.version_le_after v _ _
      _ < (w₂.course.access v put).store.version := Course.version_lt_access v hp₂
      _ ≤ w₃.course.store.version := by
          rw [hw₃]
          exact Course.version_le_after v _ cs
  · intro hm
    have h₁ := halone₁ hm
    have h₂ := (halone₂ (by rw [h₁])).trans h₁
    have h₃ := halone₃ (by rw [h₂])
    have h₄ := halone₄ (by rw [h₃, h₂])
    rw [h₄, h₃, h₂]
    refine ⟨rfl, ?_⟩
    exact congrArg
      (fun set => ChangeEvent.between (v.build w.course.store.published).run (v.build set).run)
      (Course.published_access_keep v _ 0).symm

/-- A change to which nothing comes in between reads, publishes and reads. -/
theorem change_alone {c : Course} (h : c.Sound v) {s : Store} {put : Access} (hc : s.cached = none)
    (hput : (c.moved (c.store.seen v)).access v put = (c.moved (c.store.seen v)).publishing s) :
    (change v put).run ⟨c, []⟩ =
      pure (.between (c.store.snapshot v) (s.snapshot v), ⟨c.moved (s.seen v), []⟩) := by
  obtain ⟨w', accesses, event, hrun, -, -, -, -, halone⟩ := change_run (w := ⟨c, []⟩) h put
  obtain ⟨hw', hevent⟩ := halone rfl
  have hcourse : w' = ⟨c.moved (s.seen v), []⟩ := by
    rw [hw', Course.moved_change h hc hput]
  have hnew : s.snapshot v = (v.build s.published).run := Store.snapshot_of_uncached hc v
  rw [hrun, hevent, hcourse, h.snapshot_eq_build, hnew, Course.store_moved, Store.published_seen]

/-- A commit to which nothing comes in between is the commit of the store. -/
theorem change_commit_alone {c : Course} (h : c.Sound v) {w : Writable}
    (hw : c.store.writable = some w) (changes : List Change) :
    ∃ event, (c.store.commit v changes).1 = .ok event ∧
      (change v (.commit changes)).run ⟨c, []⟩ =
        pure (event, ⟨c.moved (c.store.commit v changes).2, []⟩) := by
  rw [Store.commit_of_writable hw]
  exact ⟨_, rfl, change_alone h rfl (Course.access_commit_seen hw changes)⟩

/-- The end of a reload to which nothing comes in between is that of the store. -/
theorem change_adopt_alone {c : Course} (h : c.Sound v) (providers : List Provider) {number : Nat}
    {loaded : Loaded}
    (hsome : (Provider.allFailed providers loaded && c.store.fixed.isEmpty) = false)
    (hnew : c.store.publishedReload ≤ number) :
    ∃ event, (c.store.finishReload v providers number loaded).1 = .ok event ∧
      (change v (.adopt number loaded)).run ⟨c, []⟩ =
        pure (event, ⟨c.moved (c.store.finishReload v providers number loaded).2, []⟩) := by
  rw [Store.finishReload_of_new v hsome hnew]
  exact ⟨_, rfl, change_alone h rfl rfl⟩

/-! ### Calls behind a course -/

/-- Whether a call gives a result, in a world whose others act at every turn and in a context at
work whose hook and listeners commit. The course goes on by accesses. -/
def Reads {α : Type} (v : View Id) (called : Course) (x : StateM World α) (y : StateM Live α)
    (a : α) : Prop :=
  (∀ meanwhile, ∃ w accesses, x.run ⟨called, meanwhile⟩ = pure (a, w) ∧
    w.course = called.after v accesses) ∧
  ∀ l : Live, l.IsAt v called → ∃ l' accesses, y.run l = pure (a, l') ∧
    l'.IsAt v (called.after v accesses)

/-- Whether a call of a context at work comes to an end, and whatever is published by then and
behind it is no older than the version that is told. -/
def Settles {α : Type} (v : View Id) (called : Course) (y : StateM Live α)
    (told? : α → Option Nat) : Prop :=
  ∀ l : Live, l.IsAt v called → ∃ a l' accesses, y.run l = pure (a, l') ∧
    l'.IsAt v (called.after v accesses) ∧ ∀ version, told? a = some version →
      ∀ further, version ≤ ((called.after v accesses).after v further).store.version

variable {called : Course}

theorem reads_of_goesOn {α : Type} {x : StateM World α} {y : StateM Live α} {a : α}
    (h : called.Sound v)
    (hx : ∀ meanwhile, ∃ w accesses, x.run ⟨called, meanwhile⟩ = pure (a, w) ∧
      w.course = called.after v accesses)
    (hy : ∀ l : Live, l.IsAt v called → ∃ l', y.run l = pure (a, l') ∧ l.GoesOn l') :
    Reads v called x y a := by
  refine ⟨hx, fun l hl => ?_⟩
  obtain ⟨l', hrun, hon⟩ := hy l hl
  obtain ⟨accesses, hl'⟩ := hl.goesOn h hon
  exact ⟨l', accesses, hrun, hl'⟩

theorem reads_properties (h : called.Sound v) :
    Reads v called (properties v) Live.snapshot (v.build called.store.published).run := by
  refine reads_of_goesOn h (fun meanwhile => ?_) fun l hl => ?_
  · obtain ⟨w, accesses, hrun, hw, -⟩ := properties_run (w := ⟨called, meanwhile⟩) h
    exact ⟨w, accesses, hrun, hw⟩
  · rw [← hl.quiet, ← hl.store]
    exact Live.snapshotBy_run Live.commits_commit (hl.sound h)

theorem reads_getValue (h : called.Sound v) (key : String) :
    Reads v called (getValue v key) (Live.getValue key)
      (v.getValue called.store.published key).run := by
  refine reads_of_goesOn h (fun _ => getValue_run h key) fun l hl => ?_
  rw [← hl.quiet, ← hl.store]
  exact Live.getValueBy_run Live.commits_commit (hl.sound h) key

theorem reads_get (h : called.Sound v) (key : String) :
    Reads v called (get v key) (Live.read key) (v.get called.store.published key).run := by
  refine reads_of_goesOn h (fun _ => get_run h key) fun l hl => ?_
  rw [← hl.quiet, ← hl.store]
  exact Live.getBy_run Live.commits_commit (hl.sound h) key

/-- The version that a change tells of. -/
def toldVersion? (outcome : Result ChangeEvent) : Option Nat :=
  outcome.toOption.map (·.newVersion)

theorem settles_of_tells (h : called.Sound v) {y : StateM Live (Result ChangeEvent)}
    (hy : ∀ l : Live, l.Sound → ∃ outcome l', y.run l = pure (outcome, l') ∧ l.GoesOn l' ∧
      l.Tells outcome l') : Settles v called y toldVersion? := by
  intro l hl
  obtain ⟨outcome, l', hrun, hon, htells⟩ := hy l (hl.sound h)
  obtain ⟨accesses, hl'⟩ := hl.goesOn h hon
  refine ⟨outcome, l', accesses, hrun, hl', fun version hversion further => ?_⟩
  cases outcome with
  | error error => cases hversion
  | ok event =>
    cases hversion
    obtain ⟨-, -, hle⟩ := htells event rfl
    rw [hl'.store] at hle
    exact Nat.le_trans hle (Course.version_le_after v _ further)

theorem settles_commit (h : called.Sound v) (changes : List Change) :
    Settles v called (Live.commit changes) toldVersion? := by
  refine settles_of_tells h fun l hl => ?_
  obtain ⟨outcome, l', hrun, hon, -, htells⟩ := Live.commits_commit changes l hl
  exact ⟨outcome, l', hrun, hon, htells⟩

theorem settles_refresh (h : called.Sound v) : Settles v called Live.refresh some := by
  intro l hl
  obtain ⟨accesses, hl'⟩ := hl.goesOn h (.refresh l)
  refine ⟨_, _, accesses, rfl, hl', fun version hversion further => ?_⟩
  cases hversion
  exact Nat.le_trans (Nat.le_of_eq (congrArg Store.version hl'.store))
    (Course.version_le_after v _ further)

/-- **Snapshots are isolated and never stale.** Take any course of accesses to a context and a
reading that is called behind it, while others act at every turn of the reading, or a hook on its
way commits. The snapshot is the build of the set that was published at the call and has its
version, and a key is read from that set alone. Neither is older than what had been published at any
time before the call, and nothing that is read behind a change is older than the version that the
change has told of. What is kept is never newer than what is published, and keeping an older
snapshot never puts it in the place of a newer one. -/
theorem readings_isolated (v : View Id) (fixed : List Source) (writable : Option Writable)
    (first : Loaded) (before later : List Access) :
    let earlier := (Course.start (.initial fixed writable first)).after v before
    let called := earlier.after v later
    Reads v called (properties v) Live.snapshot (v.build called.store.published).run ∧
    (v.build called.store.published).run.version = called.store.version ∧
    (∀ key, Reads v called (getValue v key) (Live.getValue key)
      (v.getValue called.store.published key).run) ∧
    (∀ key, Reads v called (get v key) (Live.read key)
      (v.get called.store.published key).run) ∧
    earlier.store.version ≤ called.store.version ∧
    (∀ put meanwhile, ∃ w accesses event, (change v put).run ⟨called, meanwhile⟩ = pure (event, w) ∧
      w.course = called.after v accesses ∧ event.oldVersion = called.store.version ∧
      (put.Publishes called.store → event.oldVersion < event.newVersion) ∧
      ∀ further, event.newVersion ≤ (w.course.after v further).store.version) ∧
    (∀ changes, Settles v called (Live.commit changes) toldVersion?) ∧
    Settles v called Live.reload toldVersion? ∧
    Settles v called Live.refresh some ∧
    (∀ kept, called.store.cached = some kept → kept.version ≤ called.store.version ∧
      ∃ set ∈ called.past, kept = (v.build set).run) ∧
    ∀ age kept, called.store.cached = some kept →
      ∃ kept', (called.access v (.keep age)).store.cached = some kept' ∧
        kept.version ≤ kept'.version ∧
        ∀ set, called.past[age]? = some set → set.version ≤ kept.version → kept' = kept := by
  intro earlier called
  have h : called.Sound v := ((Course.Sound.start rfl).after before).after later
  refine ⟨reads_properties h, rfl, reads_getValue h, reads_get h,
    Course.version_le_after v earlier later, fun put meanwhile => ?_, settles_commit h,
    settles_of_tells h fun l hl => Live.reload_run hl, settles_refresh h,
    fun kept hk => ⟨h.kept_version_le hk, h.kept kept hk⟩,
    fun age kept hk => Course.kept_access_keep v called age hk⟩
  obtain ⟨w, accesses, event, hrun, hw, hold, hnew, hlt, -⟩ :=
    change_run (w := ⟨called, meanwhile⟩) h put
  exact ⟨w, accesses, event, hrun, hw, hold, hlt, fun further =>
    Nat.le_trans hnew (Course.version_le_after v _ further)⟩

/-- A source to write to, with a key on whose way a hook is met. -/
def watched : Writable :=
  ⟨.object 0, .ofPairs "watched" [("port", "80"), ("url", "$\x7bhook:\x7d")]⟩

/-- A context at work whose hook is armed with a write. -/
def hooked : Live where
  setup := ⟨[], defaultTimeout, .ofFilters [.hideReserved], [.hook "hook"], true⟩
  store := .initial [watched.toSource] (some watched) ⟨[], 0⟩
  files := .empty
  armed := some [.put "port" "81"]

/-- The snapshot is of the version of the call, which is not the published one any more. -/
theorem snapshot_run_hooked :
    ∃ l', Live.snapshot.run hooked =
        pure ((hooked.quiet.build hooked.store.published).run, l') ∧
      (hooked.quiet.build hooked.store.published).run.get? "port" = some "80" ∧
      (hooked.quiet.build hooked.store.published).run.version = 1 ∧ l'.store.version = 2 := by
  obtain ⟨hreads, -⟩ := readings_isolated hooked.quiet [watched.toSource] (some watched) ⟨[], 0⟩
    [] []
  obtain ⟨l', accesses, hrun, hl'⟩ := hreads.2 hooked ⟨rfl, rfl, fun _ => rfl⟩
  have hversion : (Live.snapshot.run hooked).2.store.version = 2 := by decide +kernel
  exact ⟨l', hrun, by decide +kernel, rfl, by rw [hrun] at hversion; exact hversion⟩

end World

end LayeredConfig
