import LayeredConfig.Store

/-! # The steps of a store, case by case

What a commit and the end of a reload can come to, with the state and the answer in each case, so
that nothing has to be unfolded behind this. Reading a snapshot is keeping the one that is built of
the published set (`seen_eq_keep`), and a change tells of the version before it and of its own. -/

namespace LayeredConfig

namespace View

@[simp] theorem version_build (v : View Id) (set : SourceSet) :
    (v.build set).run.version = set.version := rfl

end View

namespace Store

variable {v : View Id} {s : Store}

/-! ### Snapshots -/

section Current

variable {c : Snapshot}

theorem eq_of_current? (h : s.current? = some c) : s.cached = some c ∧ c.version = s.version := by
  obtain ⟨hc, hv⟩ := Option.filter_eq_some_iff.1 h
  exact ⟨hc, of_decide_eq_true hv⟩

theorem version_ne_of_current? (h : s.current? = none) (hc : s.cached = some c) :
    c.version ≠ s.version := by
  intro hv
  have hcurrent : s.current? = some c := by
    unfold current?
    rw [hc]
    exact Option.filter_some_pos (decide_eq_true hv)
  rw [h] at hcurrent
  cases hcurrent

theorem snapshot_of_current? (h : s.current? = some c) (v : View Id) : s.snapshot v = c := by
  unfold snapshot
  rw [h]
  rfl

theorem seen_of_current? (h : s.current? = some c) (v : View Id) : s.seen v = s := by
  unfold seen
  rw [h]
  rfl

/-- If nothing is kept of the published version, a snapshot is built. -/
theorem snapshot_of_not_current (h : s.current? = none) (v : View Id) :
    s.snapshot v = (v.build s.published).run := by
  unfold snapshot
  rw [h]
  rfl

theorem snapshot_of_uncached (h : s.cached = none) (v : View Id) :
    s.snapshot v = (v.build s.published).run := by
  refine snapshot_of_not_current ?_ v
  unfold current?
  rw [h]
  rfl

end Current

/-- A snapshot that is no newer than the one that is kept is not kept. -/
theorem keep_eq_self {c built : Snapshot} (hc : s.cached = some c)
    (hle : built.version ≤ c.version) : s.keep built = s := by
  unfold keep
  rw [hc]
  exact if_pos hle

/-- A snapshot that is newer than the one that is kept takes its place. -/
theorem keep_eq_of_lt {c built : Snapshot} (hc : s.cached = some c)
    (hlt : c.version < built.version) : s.keep built = { s with cached := some built } := by
  unfold keep
  rw [hc]
  exact if_neg (Nat.not_le.2 hlt)

theorem cached_keep_cases (s : Store) (built : Snapshot) :
    (s.keep built).cached = s.cached ∨ (s.keep built).cached = some built := by
  cases h : s.cached with
  | none => exact .inr (by rw [keep, h])
  | some c =>
    rcases Nat.lt_or_ge c.version built.version with hlt | hle
    · exact .inr (by rw [keep_eq_of_lt h hlt])
    · exact .inl (by rw [keep_eq_self h hle, h])

/-- A snapshot is of the published version. -/
@[simp] theorem version_snapshot (v : View Id) (s : Store) :
    (s.snapshot v).version = s.version := by
  cases h : s.current? with
  | none =>
    rw [snapshot_of_not_current h]
    rfl
  | some c =>
    rw [snapshot_of_current? h]
    exact (eq_of_current? h).2

/-- Reading a snapshot keeps the one of the published set. -/
theorem seen_eq_keep (v : View Id) (s : Store) : s.seen v = s.keep (v.build s.published).run := by
  cases h : s.current? with
  | none =>
    unfold seen
    rw [h, snapshot_of_not_current h]
    rfl
  | some c =>
    obtain ⟨hc, hv⟩ := eq_of_current? h
    rw [seen_of_current? h, keep_eq_self hc (Nat.le_of_eq hv.symm)]

/-- The snapshot is a build of the published set if what is kept of that version is. -/
theorem snapshot_eq_build_of_current {v : View Id}
    (h : ∀ kept, s.cached = some kept → kept.version = s.version →
      kept = (v.build s.published).run) : s.snapshot v = (v.build s.published).run := by
  cases hcurrent : s.current? with
  | none => exact snapshot_of_not_current hcurrent v
  | some kept =>
    obtain ⟨hk, hv⟩ := eq_of_current? hcurrent
    rw [snapshot_of_current? hcurrent]
    exact h kept hk hv

/-- The snapshot that was read is read again. -/
theorem snapshot_seen (v : View Id) (s : Store) : (s.seen v).snapshot v = s.snapshot v := by
  cases h : s.current? with
  | some c => rw [seen_of_current? h]
  | none =>
    rw [snapshot_of_not_current h]
    cases hseen : (s.seen v).current? with
    | none => rw [snapshot_of_not_current hseen, published_seen]
    | some c =>
      rw [snapshot_of_current? hseen]
      obtain ⟨hc, hv⟩ := eq_of_current? hseen
      rw [seen_eq_keep] at hc
      rcases cached_keep_cases s (v.build s.published).run with hkept | hkept
      · exact absurd (hv.trans (version_seen v s)) (version_ne_of_current? h (hkept ▸ hc))
      · exact Option.some.inj (hc.symm.trans hkept)

section Reading

variable {σ : Type} {view : View (StateM σ)} {published : StateM σ SourceSet}
  {cached : StateM σ (Option Snapshot)} {keeping : Snapshot → StateM σ Unit} {set : SourceSet}
  {w w₁ w₂ w₃ w₄ : σ}

/-- Reading gives what is kept if it is of the version that was looked at first. -/
theorem readSnapshot_of_kept (hp : published.run w = pure (set, w₁))
    {found : Option Snapshot} (hc : cached.run w₁ = pure (found, w₂)) {kept : Snapshot}
    (hk : found = some kept) (hv : kept.version = set.version) :
    (readSnapshot view published cached keeping).run w = pure (kept, w₂) := by
  have hf : (found.filter fun c => c.version = set.version) = some kept := by
    rw [hk]
    exact Option.filter_some_pos (decide_eq_true hv)
  unfold readSnapshot
  rw [StateT.run_bind, hp, pure_bind, StateT.run_bind, hc, pure_bind]
  simp only [hf]
  rfl

/-- Reading builds what is not kept. -/
theorem readSnapshot_of_built (hp : published.run w = pure (set, w₁))
    {found : Option Snapshot} (hc : cached.run w₁ = pure (found, w₂))
    (hn : ∀ kept, found = some kept → kept.version ≠ set.version) {built : Snapshot}
    (hb : (view.build set).run w₂ = pure (built, w₃))
    (hk : (keeping built).run w₃ = pure ((), w₄)) :
    (readSnapshot view published cached keeping).run w = pure (built, w₄) := by
  have hf : (found.filter fun c => c.version = set.version) = none :=
    Option.filter_eq_none_iff.2 fun kept hkept => by simpa using hn kept hkept
  unfold readSnapshot
  rw [StateT.run_bind, hp, pure_bind, StateT.run_bind, hc, pure_bind]
  simp only [hf]
  rw [StateT.run_bind, hb, pure_bind, StateT.run_bind, hk]
  rfl

end Reading

@[simp] theorem reloads_keep (s : Store) (built : Snapshot) :
    (s.keep built).reloads = s.reloads := by
  unfold keep
  split
  · split <;> rfl
  · rfl

@[simp] theorem publishedReload_keep (s : Store) (built : Snapshot) :
    (s.keep built).publishedReload = s.publishedReload := by
  unfold keep
  split
  · split <;> rfl
  · rfl

@[simp] theorem version_keep (s : Store) (built : Snapshot) :
    (s.keep built).version = s.version := by
  rw [version, published_keep, version]

@[simp] theorem reloads_seen (v : View Id) (s : Store) : (s.seen v).reloads = s.reloads := by
  rw [seen_eq_keep, reloads_keep]

@[simp] theorem publishedReload_seen (v : View Id) (s : Store) :
    (s.seen v).publishedReload = s.publishedReload := by
  rw [seen_eq_keep, publishedReload_keep]

/-! ### Changes -/

@[simp] theorem writable_replaceWritable (s : Store) (old new : Writable) :
    (s.replaceWritable old new).writable = some new := rfl

@[simp] theorem publishedReload_replaceWritable (s : Store) (old new : Writable) :
    (s.replaceWritable old new).publishedReload = s.publishedReload := rfl

@[simp] theorem fixed_adopt (s : Store) (number : Nat) (loaded : Loaded) :
    (s.adopt number loaded).fixed = s.fixed := rfl

@[simp] theorem writable_adopt (s : Store) (number : Nat) (loaded : Loaded) :
    (s.adopt number loaded).writable = s.writable := rfl

@[simp] theorem publishedReload_adopt (s : Store) (number : Nat) (loaded : Loaded) :
    (s.adopt number loaded).publishedReload = number := rfl

@[simp] theorem published_adopt (s : Store) (number : Nat) (loaded : Loaded) :
    (s.adopt number loaded).published =
      .ofSources (s.fixed ++ loaded.sources) (s.version + 1) := rfl

theorem commit_of_writable {w : Writable} (h : s.writable = some w) (v : View Id)
    (changes : List Change) :
    s.commit v changes =
      (.ok (.between (s.snapshot v)
        (((s.seen v).replaceWritable w (s.written w changes)).snapshot v)),
        ((s.seen v).replaceWritable w (s.written w changes)).seen v) := by
  unfold commit
  rw [h]
  rfl

theorem writable_commit {w : Writable} (h : s.writable = some w) (v : View Id)
    (changes : List Change) : (s.commit v changes).2.writable = some (s.written w changes) := by
  rw [commit_of_writable h, writable_seen, writable_replaceWritable]

/-- A commit tells of what is between the snapshots before it and behind it. -/
theorem outcome_commit {w : Writable} (h : s.writable = some w) (v : View Id)
    (changes : List Change) :
    (s.commit v changes).1 =
      .ok (.between (s.snapshot v) ((s.commit v changes).2.snapshot v)) := by
  rw [commit_of_writable h, snapshot_seen]

/-- The snapshot behind a commit is that of the set it has published. -/
theorem snapshot_commit {w : Writable} (h : s.writable = some w) (v : View Id)
    (changes : List Change) :
    (s.commit v changes).2.snapshot v = (v.build (s.commit v changes).2.published).run := by
  rw [commit_of_writable h, snapshot_seen, published_seen]
  exact snapshot_of_uncached rfl v

/-- A commit fails without a source to write to, and else publishes a copy of it. -/
theorem commit_cases (v : View Id) (changes : List Change) (s : Store) :
    (s.writable = none ∧ s.commit v changes = (.error noWritable, s)) ∨
    ∃ w event, s.writable = some w ∧
      s.commit v changes =
        (.ok event, ((s.seen v).replaceWritable w (s.written w changes)).seen v) ∧
      event.oldVersion = s.version ∧ event.newVersion = s.version + 1 := by
  cases h : s.writable with
  | none =>
    refine .inl ⟨rfl, ?_⟩
    unfold commit
    rw [h]
  | some w =>
    refine .inr ⟨w, _, rfl, commit_of_writable h v changes, version_snapshot v s, ?_⟩
    exact (version_snapshot v _).trans (by rw [version_replaceWritable, version_seen])

/-- Commits neither start reloads nor publish any. -/
theorem reloads_commit (v : View Id) (changes : List Change) (s : Store) :
    (s.commit v changes).2.reloads = s.reloads := by
  rcases commit_cases v changes s with ⟨-, h⟩ | ⟨w, event, -, h, -⟩
  · rw [h]
  · rw [h]
    exact (reloads_seen v _).trans (reloads_seen v s)

theorem publishedReload_commit (v : View Id) (changes : List Change) (s : Store) :
    (s.commit v changes).2.publishedReload = s.publishedReload := by
  rcases commit_cases v changes s with ⟨-, h⟩ | ⟨w, event, -, h, -⟩
  · rw [h]
  · simp [h]

theorem finishReload_of_new (v : View Id) {providers : List Provider} {number : Nat}
    {loaded : Loaded} (hsome : (Provider.allFailed providers loaded && s.fixed.isEmpty) = false)
    (hnew : s.publishedReload ≤ number) :
    s.finishReload v providers number loaded =
      (.ok (.between (s.snapshot v) (((s.seen v).adopt number loaded).snapshot v)),
        ((s.seen v).adopt number loaded).seen v) := by
  unfold finishReload
  rw [hsome, if_neg Bool.false_ne_true, if_neg (Nat.not_lt.2 hnew)]
  rfl

/-- A reload fails when there is nothing to read from, publishes nothing when a later one has been
published, and else publishes what it has loaded. -/
theorem finishReload_cases (v : View Id) (providers : List Provider) (number : Nat)
    (loaded : Loaded) (s : Store) :
    s.finishReload v providers number loaded = (.error (.noSources providers.length), s) ∨
    (number < s.publishedReload ∧
      s.finishReload v providers number loaded =
        (.ok (.between (s.snapshot v) (s.snapshot v)), s.seen v)) ∨
    ∃ event, s.publishedReload ≤ number ∧
      s.finishReload v providers number loaded =
        (.ok event, ((s.seen v).adopt number loaded).seen v) ∧
      event = .between (s.snapshot v) (((s.seen v).adopt number loaded).snapshot v) ∧
      event.oldVersion = s.version ∧ event.newVersion = s.version + 1 := by
  cases hsome : Provider.allFailed providers loaded && s.fixed.isEmpty with
  | true =>
    refine .inl ?_
    unfold finishReload
    rw [hsome, if_pos rfl]
  | false =>
    rcases Nat.lt_or_ge number s.publishedReload with hlt | hnew
    · refine .inr (.inl ⟨hlt, ?_⟩)
      unfold finishReload
      rw [hsome, if_neg Bool.false_ne_true, if_pos hlt]
    · refine .inr (.inr ⟨_, hnew, finishReload_of_new v hsome hnew, rfl, version_snapshot v s, ?_⟩)
      exact (version_snapshot v _).trans (by rw [version_adopt, version_seen])

/-- The end of a reload starts no other. -/
theorem reloads_finishReload (v : View Id) (providers : List Provider) (number : Nat)
    (loaded : Loaded) (s : Store) :
    (s.finishReload v providers number loaded).2.reloads = s.reloads := by
  rcases finishReload_cases v providers number loaded s with h | ⟨-, h⟩ | ⟨event, -, h, -⟩
  · rw [h]
  · rw [h]
    exact reloads_seen v s
  · rw [h]
    exact (reloads_seen v _).trans (reloads_seen v s)

end Store

end LayeredConfig
