import LayeredConfig.Proofs.Snapshot.Difference
import LayeredConfig.Proofs.Store.Access

/-! # What the events of a course tell

Commits and published reloads tell of what has changed, a refresh goes to the next version without
telling, and a reload that is passed over tells of nothing. The events of a course lie behind one
another: each goes on from a version that is not below the one at which the event before it ended,
and replayed in this order they lead from the values of the first set to those of the last
(`Stretch.story`).

`Story` is what is kept through any number of steps. A change adds the event between the two
snapshots it has read, and all other steps leave the published sources alone. -/

namespace LayeredConfig

/-! ### Events -/

/-- The event of a reload that published. One that was passed over tells of one version. -/
def publishedEvent? : Result ChangeEvent → Option ChangeEvent
  | .ok event => if event.oldVersion = event.newVersion then none else some event
  | .error _ => none

/-- A reload that was passed over has no event. -/
theorem publishedEvent?_between_self (s : Snapshot) :
    publishedEvent? (.ok (.between s s)) = none := if_pos rfl

theorem publishedEvent?_of_lt {event : ChangeEvent} (h : event.oldVersion < event.newVersion) :
    publishedEvent? (.ok event) = some event := if_neg (Nat.ne_of_lt h)

/-- The event that a commit or a published reload has told of. -/
def Occurrence.event? : Occurrence → Option ChangeEvent
  | committed _ outcome => outcome.toOption
  | finished _ _ outcome => publishedEvent? outcome
  | _ => none

/-- The events that have been told of, in the order of their occurrence. -/
def events (os : List Occurrence) : List ChangeEvent := os.filterMap Occurrence.event?

theorem events_append (os rest : List Occurrence) :
    events (os ++ rest) = events os ++ events rest :=
  List.filterMap_append

theorem events_singleton (o : Occurrence) : events [o] = o.event?.toList := by
  unfold events
  rw [List.filterMap_cons, List.filterMap_nil]
  cases o.event? <;> rfl

namespace View

/-- Values depend on the sources and not on the version. -/
theorem values_build_congr (v : View Id) {a b : SourceSet} (h : a.entries = b.entries) :
    (v.build a).run.values = (v.build b).run.values := by
  obtain ⟨entries, version⟩ := a
  cases h
  rfl

end View

namespace Course

variable {v : View Id} {providers : List Provider} {c d e : Course} {os rest : List Occurrence}
  {es fs : List ChangeEvent}

/-- Any number of steps from one course on, one behind the other. A reload may come to its end
at any time. -/
inductive Stretch (v : View Id) (providers : List Provider) (c : Course) :
    List Occurrence → Course → Prop
  | nil : Stretch v providers c [] c
  | snoc {os before : List Occurrence} {o : Occurrence} {d e : Course}
    (stretch : Stretch v providers c os d) (step : Step v providers before d o e) :
    Stretch v providers c (os ++ [o]) e

theorem Stretch.single {before : List Occurrence} {o : Occurrence}
    (step : Step v providers before c o d) : Stretch v providers c [o] d :=
  .snoc .nil step

theorem Stretch.append (h : Stretch v providers c os d) (h' : Stretch v providers d rest e) :
    Stretch v providers c (os ++ rest) e := by
  induction h' with
  | nil => rwa [List.append_nil]
  | snoc _ step ih =>
    rw [← List.append_assoc]
    exact .snoc ih step

/-- A stretch is some accesses. -/
theorem Stretch.accesses (h : c.Sound v) (stretch : Stretch v providers c os d) :
    ∃ accesses, d = c.after v accesses := by
  induction stretch with
  | nil => exact ⟨[], rfl⟩
  | snoc _ step ih =>
    obtain ⟨as, rfl⟩ := ih
    obtain ⟨bs, rfl⟩ := step.accesses (h.after as)
    exact ⟨as ++ bs, (after_append v c as bs).symm⟩

theorem Stretch.sound (h : c.Sound v) (stretch : Stretch v providers c os d) : d.Sound v := by
  obtain ⟨accesses, rfl⟩ := stretch.accesses h
  exact h.after accesses

/-! ### Stories -/

/-- Events that lead from one course to another: they go forward, one behind the other, between the
versions of the two, and replayed they lead from the values of the one to those of the other. -/
structure Story (v : View Id) (c : Course) (es : List ChangeEvent) (d : Course) : Prop where
  le : c.store.version ≤ d.store.version
  forward : ∀ event ∈ es, event.oldVersion < event.newVersion
  between : ∀ event ∈ es, c.store.version ≤ event.oldVersion ∧ event.newVersion ≤ d.store.version
  ordered : es.Pairwise fun a b => a.newVersion ≤ b.oldVersion
  replayed : es.foldlM ChangeEvent.replay? (v.build c.store.published).run.values =
    some (v.build d.store.published).run.values

namespace Story

/-- Where the sources stay there is nothing to tell. -/
theorem of_entries (hle : c.store.version ≤ d.store.version)
    (h : d.store.published.entries = c.store.published.entries) : Story v c [] d where
  le := hle
  forward _ h := absurd h List.not_mem_nil
  between _ h := absurd h List.not_mem_nil
  ordered := .nil
  replayed := congrArg some (v.values_build_congr h.symm)

theorem of_published (h : d.store.published = c.store.published) : Story v c [] d :=
  of_entries (Nat.le_of_eq (congrArg SourceSet.version h.symm)) (congrArg SourceSet.entries h)

/-- One story behind another. -/
theorem append (h : Story v c es d) (h' : Story v d fs e) : Story v c (es ++ fs) e where
  le := Nat.le_trans h.le h'.le
  forward event hmem := (List.mem_append.1 hmem).elim (h.forward event) (h'.forward event)
  between event hmem := by
    rcases List.mem_append.1 hmem with hmem | hmem
    · obtain ⟨hold, hnew⟩ := h.between event hmem
      exact ⟨hold, Nat.le_trans hnew h'.le⟩
    · obtain ⟨hold, hnew⟩ := h'.between event hmem
      exact ⟨Nat.le_trans h.le hold, hnew⟩
  ordered := by
    refine List.pairwise_append.2 ⟨h.ordered, h'.ordered, fun a ha b hb => ?_⟩
    exact Nat.le_trans (h.between a ha).2 (h'.between b hb).1
  replayed := by
    rw [List.foldlM_append, h.replayed]
    exact h'.replayed

/-- A change tells of what is between the snapshot before it and its own. -/
theorem change (h : c.Sound v) {s : Store} (hc : s.cached = none)
    (hv : s.version = c.store.version + 1) :
    Story v c [.between (c.store.snapshot v) (s.snapshot v)] (c.moved (s.seen v)) := by
  have hnew : s.snapshot v = (v.build s.published).run := Store.snapshot_of_uncached hc v
  have hold := Store.version_snapshot v c.store
  have hnewVersion := Store.version_snapshot v s
  refine ⟨?_, ?_, ?_, List.pairwise_singleton _ _, ?_⟩
  · rw [store_moved, Store.version_seen, hv]
    exact Nat.le_succ _
  · intro event hmem
    cases List.mem_singleton.1 hmem
    show (c.store.snapshot v).version < (s.snapshot v).version
    omega
  · intro event hmem
    cases List.mem_singleton.1 hmem
    rw [store_moved, Store.version_seen]
    exact ⟨Nat.le_of_eq hold.symm, Nat.le_of_eq hnewVersion⟩
  · rw [List.foldlM_cons, ← h.snapshot_eq_build, ChangeEvent.replay?_between, store_moved,
      Store.published_seen, hnew]
    rfl

end Story

/-- A step tells of what it has changed. -/
theorem Step.story (h : c.Sound v) (step : Step v providers os c o d) :
    Story v c (events [o]) d := by
  rw [events_singleton]
  cases step with
  | commit changes =>
    rcases Store.commit_cases v changes c.store with ⟨-, hc⟩ | ⟨w, -, hw, -⟩
    · rw [hc]
      exact .of_published rfl
    · rw [Store.commit_of_writable hw]
      exact .change h rfl (by simp)
  | refresh => exact .of_entries (Nat.le_succ _) rfl
  | start => exact .of_published rfl
  | @finish number loaded _ =>
    rcases Store.finishReload_cases v providers number loaded c.store with
      hf | ⟨-, hf⟩ | ⟨event, -, hf, hevent, hold, hnew⟩
    · rw [hf]
      exact .of_published rfl
    · -- passed over: both snapshots are of one version
      rw [hf]
      simp only [Occurrence.event?, publishedEvent?_between_self, Option.toList_none]
      exact .of_published (Store.published_seen v c.store)
    · rw [hf]
      have hsome : publishedEvent? (.ok event) = some event := publishedEvent?_of_lt (by omega)
      simp only [Occurrence.event?, hsome, Option.toList_some]
      rw [hevent]
      exact .change h rfl (by simp)
  | read => exact .of_published (Store.published_seen v c.store)
  | keep _ => exact .of_published (Store.published_keep c.store _)

/-- The events of a stretch lead from its beginning to its end. -/
theorem Stretch.story (h : c.Sound v) (stretch : Stretch v providers c os d) :
    Story v c (events os) d := by
  induction stretch with
  | nil => exact .of_published rfl
  | snoc stretch step ih =>
    rw [events_append]
    exact ih.append (step.story (stretch.sound h))

end Course

end LayeredConfig
