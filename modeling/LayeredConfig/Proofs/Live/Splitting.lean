import LayeredConfig.Proofs.Live.Undisturbed
import LayeredConfig.Proofs.Snapshot.Composition
import LayeredConfig.Proofs.Store.Anonymity
import LayeredConfig.Proofs.Store.Published

/-! # Splitting a batch of writes

Whether writes are committed in one batch or in two makes no difference behind the last commit
(`commit_append`). The writable source is another copy of what it was at first, with another
identity, but what is read of the published set depends only on the batches together and on the
published load (`Accounts.anonymous_eq`). Each commit tells of what is between the snapshots before
it and behind it, so the two events come, key by key, to the event of the one batch, whatever the
values in between were. -/

namespace LayeredConfig

namespace Course

variable {v : View Id} {providers : List Provider} {fixed : List Source} {w : Writable}
  {first loaded : Loaded} {os os' : List Occurrence} {s t : Store} {c : Course}

theorem LoadedBy.of_committed {number : Nat} {changes : List Change}
    {outcome : Result ChangeEvent}
    (h : LoadedBy first (os ++ [.committed changes outcome]) number loaded) :
    LoadedBy first os number loaded := by
  cases h with
  | first => exact .first
  | reload h =>
    rcases List.mem_append.1 h with h | h
    · exact .reload h
    · cases List.mem_singleton.1 h

/-- What is written and published, but for the identity of the copy, depends only on the batches
together and on the published load. -/
theorem Accounts.anonymous_eq (hs : Accounts fixed (some w) first os s)
    (ht : Accounts fixed (some w) first os' t)
    (hload : ∀ a b, LoadedBy first os s.publishedReload a →
      LoadedBy first os' t.publishedReload b → a = b)
    (hbatches : (batches os).foldl Table.withChanges w.table =
      (batches os').foldl Table.withChanges w.table) :
    s.writable.map (·.table) = t.writable.map (·.table) ∧
      s.published.anonymous = t.published.anonymous := by
  obtain ⟨a, ha, hpublished⟩ := hs.published
  obtain ⟨b, hb, hpublished'⟩ := ht.published
  cases hload a b ha hb
  obtain ⟨x, hx, -, hxtable, hfixed⟩ := hs.written w rfl
  obtain ⟨y, hy, -, hytable, hfixed'⟩ := ht.written w rfl
  have htable : x.table = y.table := hxtable.trans (hbatches.trans hytable.symm)
  have hsource : x.toSource.anonymous = y.toSource.anonymous := by
    unfold Writable.toSource
    rw [htable]
    rfl
  have hsources : (fixed.map fun u => u.renewed w.id x.toSource).map Source.anonymous =
      (fixed.map fun u => u.renewed w.id y.toSource).map Source.anonymous := by
    rw [List.map_map, List.map_map]
    exact List.map_congr_left fun u _ => Source.anonymous_renewed_congr hsource u w.id
  constructor
  · rw [hx, hy, Option.map_some, Option.map_some, htable]
  · rw [hpublished, hpublished', SourceSet.anonymous_ofSources, SourceSet.anonymous_ofSources,
      List.map_append, List.map_append, hfixed, hfixed', hsources]

theorem accounts_of_run (hw : w.IsAmong fixed)
    (run : Run v providers (.initial fixed (some w) first) os c)
    (hl : ∀ number loaded, LoadedBy first os number loaded → loaded.Tells w) :
    Accounts fixed (some w) first os c.store :=
  .run (fun _ h => Option.some.inj h ▸ hw) run fun _ h => Option.some.inj h ▸ hl

/-- Two batches one behind the other and both of them in one leave stores that are read alike. -/
theorem readsLike_commit_append (hw : w.IsAmong fixed)
    (run : Run v providers (.initial fixed (some w) first) os c)
    (hl : ∀ number loaded, LoadedBy first os number loaded → loaded.Tells w)
    {w₀ : Writable} (hw₀ : c.store.writable = some w₀) (a b : List Change) :
    ((c.store.commit v a).2.commit v b).2.ReadsLike v (c.store.commit v (a ++ b)).2 := by
  have hsplit := accounts_of_run hw ((run.snoc (.commit a)).snoc (.commit b)) fun _ _ h =>
    hl _ _ h.of_committed.of_committed
  have hwhole := accounts_of_run hw (run.snoc (.commit (a ++ b))) fun _ _ h => hl _ _ h.of_committed
  simp only [store_moved] at hsplit hwhole
  have hw₁ := Store.writable_commit hw₀ v a
  have hbatches (t : Table) :
      (batches (os ++ [.committed a (c.store.commit v a).1] ++
        [.committed b ((c.store.commit v a).2.commit v b).1])).foldl Table.withChanges t =
      (batches (os ++ [.committed (a ++ b) (c.store.commit v (a ++ b)).1])).foldl
        Table.withChanges t := by
    rw [Store.outcome_commit hw₁ v b, Store.outcome_commit hw₀ v a,
      Store.outcome_commit hw₀ v (a ++ b)]
    simp only [batches_concat_committed, List.foldl_append, List.foldl_cons, List.foldl_nil,
      Table.withChanges_append]
  -- commits publish no reload, so one load stands behind both ends
  obtain ⟨hwritten, hanonymous⟩ := hsplit.anonymous_eq hwhole (fun x y hx hy => by
    simp only [Store.publishedReload_commit] at hx hy
    exact hx.of_committed.of_committed.unique run hy.of_committed) (hbatches w.table)
  exact .of_anonymous hwritten hanonymous (Store.snapshot_commit hw₁ v b)
    (Store.snapshot_commit hw₀ v (a ++ b))

/-- **Splitting a batch of writes changes nothing.** Let a context be where any course has led to.
Two batches of writes that are committed one behind the other leave the writable source with the
same contents as both of them in one batch, and behind them the sources, the value and the text of
every key and the snapshot are the same, versions aside. The event of the one batch is what the
events of the two come to, key by key. If neither a hook nor a listener writes on the way, this is
what comes of the commits of a context at work. -/
theorem commit_append (hw : w.IsAmong fixed)
    (run : Run v providers (.initial fixed (some w) first) os c)
    (hl : ∀ number loaded, LoadedBy first os number loaded → loaded.Tells w) (a b : List Change) :
    let half := c.store.commit v a
    let split := half.2.commit v b
    let whole := c.store.commit v (a ++ b)
    split.2.ReadsLike v whole.2 ∧
    (∃ e f g, half.1 = .ok e ∧ split.1 = .ok f ∧ whole.1 = .ok g ∧
      g.changes = (e.andThen f).changes ∧
      ∀ key, g.change? key = KeyChange.composed (e.change? key) (f.change? key)) ∧
    ∀ l : Live, l.Undisturbed → l.quiet = v → l.store = c.store →
      ∃ l₁ l₂ m, (Live.commit a).run l = pure (half.1, l₁) ∧
        (Live.commit b).run l₁ = pure (split.1, l₂) ∧
        (Live.commit (a ++ b)).run l = pure (whole.1, m) ∧
        l₂.quiet = v ∧ m.quiet = v ∧ l₂.store = split.2 ∧ m.store = whole.2 := by
  intro half split whole
  obtain ⟨w₀, hw₀, -⟩ := (accounts_of_run hw run hl).written w rfl
  have hw₁ := Store.writable_commit hw₀ v a
  have hreads : split.2.ReadsLike v whole.2 := readsLike_commit_append hw run hl hw₀ a b
  refine ⟨hreads, ⟨_, _, _, Store.outcome_commit hw₀ v a, Store.outcome_commit hw₁ v b,
    Store.outcome_commit hw₀ v (a ++ b), ChangeEvent.between_of_halves hreads.values⟩, ?_⟩
  intro l hl hquiet hstore
  obtain ⟨l₁, hrun₁, hl₁, hquiet₁, hstore₁⟩ := hl.commit_run a
  obtain ⟨l₂, hrun₂, -, hquiet₂, hstore₂⟩ := hl₁.commit_run b
  obtain ⟨m, hrun, -, hquiet', hstore'⟩ := hl.commit_run (a ++ b)
  rw [hquiet, hstore] at hrun₁ hstore₁ hrun hstore'
  rw [hquiet₁, hquiet, hstore₁] at hrun₂ hstore₂
  exact ⟨l₁, l₂, m, hrun₁, hrun₂, hrun, hquiet₂.trans (hquiet₁.trans hquiet),
    hquiet'.trans hquiet, hstore₂, hstore'⟩

/-- Writes that put a source below the others, and writes that bring it back. -/
def descent : List Change := [.put ordinalKey "-5", .put "host" "b"]

def ascent : List Change := [.remove ordinalKey, .put "log" "on"]

/-- A context at work with files loaded, a source to write to and one with defaults. -/
def loadedLive : Live where
  setup := ⟨[], defaultTimeout, .ofFilters [], [], true⟩
  store := .initial [defaults, overrides.toSource] (some overrides) fileLoad
  files := .empty

theorem changes_of_ok {outcome : Result ChangeEvent} {event : ChangeEvent} {cs : List KeyChange}
    (h : outcome = .ok event) (hcs : outcome.toOption.map (·.changes) = some cs) :
    event.changes = cs := by
  rw [h] at hcs
  exact Option.some.inj hcs

/-- On the way the port is that of the defaults, and the host that of the file. The ordinal and the
port are told of by both events and not by that of the one batch. -/
theorem commit_append_descent :
    ∃ e f g l₁ l₂ m, (Live.commit descent).run loadedLive = pure (.ok e, l₁) ∧
      (Live.commit ascent).run l₁ = pure (.ok f, l₂) ∧
      (Live.commit (descent ++ ascent)).run loadedLive = pure (.ok g, m) ∧
      l₂.store.ReadsLike loadedLive.quiet m.store ∧
      e.changes = [⟨ordinalKey, .added, none, some "-5"⟩, ⟨"port", .updated, some "80", some "8080"⟩] ∧
      f.changes = [⟨ordinalKey, .removed, some "-5", none⟩, ⟨"host", .updated, some "a", some "b"⟩,
        ⟨"log", .added, none, some "on"⟩, ⟨"port", .updated, some "8080", some "80"⟩] ∧
      g.changes = (e.andThen f).changes ∧
      g.changes = [⟨"host", .updated, some "a", some "b"⟩, ⟨"log", .added, none, some "on"⟩] := by
  have htells : ∀ number loaded, LoadedBy fileLoad [] number loaded → loaded.Tells overrides := by
    intro number loaded h
    cases h with
    | first => exact tells_fileLoad
    | reload h => exact absurd h List.not_mem_nil
  obtain ⟨hreads, ⟨e, f, g, he, hf, hg, hchanges, -⟩, hlive⟩ :=
    commit_append isAmong_overrides (@Run.nil loadedLive.quiet [] _) htells descent ascent
  obtain ⟨l₁, l₂, m, hrun₁, hrun₂, hrun, -, -, hstore, hstore'⟩ :=
    hlive loadedLive ⟨rfl, rfl⟩ rfl rfl
  rw [he] at hrun₁
  rw [hf] at hrun₂
  rw [hg] at hrun
  refine ⟨e, f, g, l₁, l₂, m, hrun₁, hrun₂, hrun, ?_, ?_, ?_, hchanges, ?_⟩
  · rw [hstore, hstore']
    exact hreads
  · exact changes_of_ok he (by decide +kernel)
  · exact changes_of_ok hf (by decide +kernel)
  · exact changes_of_ok hg (by decide +kernel)

end Course

end LayeredConfig
