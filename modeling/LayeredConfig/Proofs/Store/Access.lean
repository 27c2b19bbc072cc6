import LayeredConfig.Proofs.Store.Course
import Mathlib.Data.List.Pairwise

/-! # Accesses to what is shared

Readers and writers of a context share two cells, the published set and the kept snapshot. A change
publishes a set, drops the kept snapshot and reads the new one, each on its own, and a reading keeps
what it has built some time after it took its set. Between any two such accesses others may come.

`Course.access` is one access, and every step of a course is a few of them (`Step.accesses`).
Whatever the order, the kept snapshot is the build of one of the sets that have been published
(`Sound`), and since these have versions of their own it is known by its version. -/

namespace LayeredConfig

/-- An access to what readers and writers share. -/
inductive Access
  /-- A reload takes its number. -/
  | start
  /-- A batch of writes is published. -/
  | commit (changes : List Change)
  /-- The same sources are published again. -/
  | refresh
  /-- What the reload with a number has loaded is published. -/
  | adopt (number : Nat) (loaded : Loaded)
  /-- The kept snapshot is dropped. -/
  | drop
  /-- A reading keeps the snapshot it has built of a set, behind which `age` sets have been
  published. -/
  | keep (age : Nat)

/-- Whether an access publishes. A batch of writes needs a source to write to. -/
def Access.Publishes (s : Store) : Access → Prop
  | .commit _ => s.writable.isSome
  | .refresh => True
  | .adopt _ _ => True
  | _ => False

namespace Course

variable {v : View Id} {c : Course}

/-- A store that publishes and leaves the kept snapshot where it is. -/
def publishing (c : Course) (s : Store) : Course := c.moved { s with cached := c.store.cached }

/-- The course after an access. -/
def access (v : View Id) (c : Course) : Access → Course
  | .start => c.moved c.store.startReload.2
  | .commit changes =>
    match c.store.writable with
    | none => c
    | some w => c.publishing (c.store.replaceWritable w (c.store.written w changes))
  | .refresh => c.publishing c.store.refresh
  | .adopt number loaded => c.publishing (c.store.adopt number loaded)
  | .drop => c.moved { c.store with cached := none }
  | .keep age =>
    match c.past[age]? with
    | none => c
    | some set => c.moved (c.store.keep (v.build set).run)

/-- The course after some accesses. -/
def after (v : View Id) (c : Course) (accesses : List Access) : Course :=
  accesses.foldl (access v) c

theorem after_append (v : View Id) (c : Course) (as bs : List Access) :
    c.after v (as ++ bs) = (c.after v as).after v bs := List.foldl_append

/-- An access changes nothing, publishes under the next version, or leaves the published set alone;
a snapshot that it keeps is the build of a set of the past. -/
theorem access_cases (v : View Id) (c : Course) (a : Access) :
    c.access v a = c ∨
    (∃ s, c.access v a = c.publishing s ∧ s.version = c.store.version + 1 ∧
      s.writable.isSome = c.store.writable.isSome) ∨
    ∃ s, c.access v a = c.moved s ∧ s.published = c.store.published ∧
      s.writable = c.store.writable ∧
      ∀ kept, s.cached = some kept →
        c.store.cached = some kept ∨ ∃ set ∈ c.past, kept = (v.build set).run := by
  cases a with
  | start => exact .inr (.inr ⟨_, rfl, rfl, rfl, fun kept hk => .inl hk⟩)
  | commit changes =>
    cases hw : c.store.writable with
    | none => exact .inl (by simp only [access, hw])
    | some w => exact .inr (.inl ⟨_, by simp only [access, hw]; rfl, rfl, rfl⟩)
  | refresh => exact .inr (.inl ⟨_, rfl, rfl, rfl⟩)
  | adopt number loaded => exact .inr (.inl ⟨_, rfl, rfl, rfl⟩)
  | drop => exact .inr (.inr ⟨_, rfl, rfl, rfl, fun kept hk => nomatch hk⟩)
  | keep age =>
    cases hset : c.past[age]? with
    | none => exact .inl (by simp only [access, hset])
    | some set =>
      refine .inr (.inr ⟨_, by simp only [access, hset]; rfl, Store.published_keep _ _,
        Store.writable_keep _ _, fun kept hk => ?_⟩)
      rcases Store.cached_keep_cases c.store (v.build set).run with hc | hc
      · exact .inl (hc ▸ hk)
      · exact .inr ⟨set, List.mem_of_getElem? hset, Option.some.inj (hk.symm.trans hc)⟩

theorem published_access_keep (v : View Id) (c : Course) (age : Nat) :
    (c.access v (.keep age)).store.published = c.store.published := by
  simp only [access]
  split
  · rfl
  · exact Store.published_keep _ _

/-! ### What grows -/

theorem version_le_access (v : View Id) (c : Course) (a : Access) :
    c.store.version ≤ (c.access v a).store.version := by
  rcases access_cases v c a with h | ⟨s, h, hv, -⟩ | ⟨s, h, hp, -⟩
  · exact Nat.le_of_eq (by rw [h])
  · rw [h]
    exact Nat.le_trans (Nat.le_succ _) (Nat.le_of_eq hv.symm)
  · rw [h]
    exact Nat.le_of_eq (congrArg SourceSet.version hp).symm

theorem version_lt_access (v : View Id) {a : Access} (h : a.Publishes c.store) :
    c.store.version < (c.access v a).store.version := by
  cases a with
  | commit changes =>
    obtain ⟨w, hw⟩ := Option.isSome_iff_exists.1 h
    simp only [access, hw]
    exact Nat.lt_succ_self _
  | refresh => exact Nat.lt_succ_self _
  | adopt number loaded => exact Nat.lt_succ_self _
  | start => exact h.elim
  | drop => exact h.elim
  | keep age => exact h.elim

/-- Versions never go back. -/
theorem version_le_after (v : View Id) (c : Course) (accesses : List Access) :
    c.store.version ≤ (c.after v accesses).store.version := by
  induction accesses generalizing c with
  | nil => exact Nat.le_refl _
  | cons a rest ih => exact Nat.le_trans (version_le_access v c a) (ih _)

theorem past_suffix_moved (c : Course) (s : Store) : c.past <:+ (c.moved s).past := by
  unfold moved
  split
  · exact List.suffix_rfl
  · exact List.suffix_cons _ _

/-- What was published once stays in the past. -/
theorem past_suffix_after (v : View Id) (c : Course) (accesses : List Access) :
    c.past <:+ (c.after v accesses).past := by
  induction accesses generalizing c with
  | nil => exact List.suffix_rfl
  | cons a rest ih =>
    refine List.IsSuffix.trans ?_ (ih _)
    rcases access_cases v c a with h | ⟨s, h, -⟩ | ⟨s, h, -⟩
    · exact ⟨[], (congrArg Course.past h).symm⟩
    · rw [h]
      exact past_suffix_moved c _
    · rw [h]
      exact past_suffix_moved c _

/-- A context can be written to for good or never. -/
theorem isSome_writable_after (v : View Id) (c : Course) (accesses : List Access) :
    (c.after v accesses).store.writable.isSome = c.store.writable.isSome := by
  induction accesses generalizing c with
  | nil => rfl
  | cons a rest ih =>
    refine (ih _).trans ?_
    rcases access_cases v c a with h | ⟨s, h, -, hw⟩ | ⟨s, h, -, hw, -⟩
    · rw [h]
    · rw [h]
      exact hw
    · rw [h]
      exact congrArg Option.isSome hw

theorem publishes_after (v : View Id) {a : Access} (h : a.Publishes c.store)
    (accesses : List Access) : a.Publishes (c.after v accesses).store := by
  cases a with
  | commit changes => exact (isSome_writable_after v c accesses).trans h
  | refresh => exact h
  | adopt number loaded => exact h
  | start => exact h
  | drop => exact h
  | keep age => exact h

/-! ### Versions -/

/-- The published set is the last one, and versions have grown with every publication. -/
structure Ordered (c : Course) : Prop where
  published : c.past.head? = some c.store.published
  descending : c.past.Pairwise fun a b => b.version < a.version

namespace Ordered

theorem start (s : Store) : Ordered (.start s) where
  published := rfl
  descending := List.pairwise_singleton _ _

/-- No set of the past is newer than the published one. -/
theorem version_le (h : c.Ordered) {set : SourceSet} (hmem : set ∈ c.past) :
    set.version ≤ c.store.version := by
  obtain ⟨older, hpast⟩ := List.head?_eq_some_iff.1 h.published
  rw [hpast] at hmem
  rcases List.mem_cons.1 hmem with rfl | hmem
  · exact Nat.le_refl _
  · exact Nat.le_of_lt ((List.pairwise_cons.1 (hpast ▸ h.descending)).1 set hmem)

theorem published_mem (h : c.Ordered) : c.store.published ∈ c.past :=
  List.mem_of_mem_head? h.published

/-- A set of the past is known by its version. -/
theorem eq_of_version (h : c.Ordered) {a b : SourceSet} (ha : a ∈ c.past) (hb : b ∈ c.past)
    (hv : a.version = b.version) : a = b := by
  have hsymm : Std.Symm fun a b : SourceSet => a.version ≠ b.version := ⟨fun _ _ h => h.symm⟩
  have hdistinct : c.past.Pairwise fun a b => a.version ≠ b.version :=
    h.descending.imp fun hlt => (Nat.ne_of_lt hlt).symm
  exact Classical.byContradiction fun hne => hdistinct.forall ha hb hne hv

/-- Publishing under the next version. -/
theorem publishing (h : c.Ordered) {s : Store} (hv : s.version = c.store.version + 1) :
    (c.publishing s).Ordered := by
  have hpast : (c.publishing s).past = s.published :: c.past :=
    if_neg (by show s.version ≠ c.store.version; omega)
  refine ⟨by rw [hpast]; rfl, ?_⟩
  rw [hpast]
  refine List.pairwise_cons.2 ⟨fun set hmem => ?_, h.descending⟩
  have hle := h.version_le hmem
  show set.version < s.version
  omega

/-- Leaving the published set alone. -/
theorem staying (h : c.Ordered) {s : Store} (hp : s.published = c.store.published) :
    (c.moved s).Ordered := by
  have hpast : (c.moved s).past = c.past := if_pos (congrArg SourceSet.version hp)
  exact ⟨by rw [hpast, h.published, ← hp]; rfl, hpast ▸ h.descending⟩

theorem access (h : c.Ordered) (v : View Id) (a : Access) : (c.access v a).Ordered := by
  rcases access_cases v c a with heq | ⟨s, heq, hv, -⟩ | ⟨s, heq, hp, -⟩
  · rw [heq]
    exact h
  · rw [heq]
    exact h.publishing hv
  · rw [heq]
    exact h.staying hp

theorem after (h : c.Ordered) (v : View Id) (accesses : List Access) :
    (c.after v accesses).Ordered := by
  induction accesses generalizing c with
  | nil => exact h
  | cons a rest ih => exact ih (h.access v a)

end Ordered

/-! ### What is kept -/

/-- A snapshot that is kept behind an access was kept before it, or is the build of a set of the
past. -/
theorem kept_access {a : Access} {kept : Snapshot}
    (hk : (c.access v a).store.cached = some kept) :
    c.store.cached = some kept ∨ ∃ set ∈ (c.access v a).past, kept = (v.build set).run := by
  rcases access_cases v c a with h | ⟨s, h, -⟩ | ⟨s, h, -, -, hkept⟩
  · exact .inl (h ▸ hk)
  · rw [h] at hk
    exact .inl hk
  · rw [h] at hk ⊢
    rcases hkept kept hk with hk | ⟨set, hmem, heq⟩
    · exact .inl hk
    · exact .inr ⟨set, (past_suffix_moved c s).subset hmem, heq⟩

theorem kept_after {accesses : List Access} {kept : Snapshot}
    (hk : (c.after v accesses).store.cached = some kept) :
    c.store.cached = some kept ∨ ∃ set ∈ (c.after v accesses).past, kept = (v.build set).run := by
  induction accesses generalizing c with
  | nil => exact .inl hk
  | cons a rest ih =>
    rcases ih hk with hk | hbuilt
    · rcases kept_access hk with hk | ⟨set, hmem, heq⟩
      · exact .inl hk
      · exact .inr ⟨set, (past_suffix_after v _ rest).subset hmem, heq⟩
    · exact .inr hbuilt

/-- Versions are in order, and the kept snapshot is the build of a set that was published. -/
structure Sound (v : View Id) (c : Course) : Prop extends Ordered c where
  kept : ∀ kept, c.store.cached = some kept → ∃ set ∈ c.past, kept = (v.build set).run

namespace Sound

theorem start {s : Store} (h : s.cached = none) : Sound v (.start s) where
  toOrdered := .start s
  kept kept hk := by simp [h] at hk

theorem kept_version_le (h : Sound v c) {kept : Snapshot} (hk : c.store.cached = some kept) :
    kept.version ≤ c.store.version := by
  obtain ⟨set, hmem, rfl⟩ := h.kept kept hk
  exact h.version_le hmem

/-- A kept snapshot is the build of the set of its version. -/
theorem kept_eq_build (h : Sound v c) {kept : Snapshot} (hk : c.store.cached = some kept)
    {set : SourceSet} (hmem : set ∈ c.past) (hv : kept.version = set.version) :
    kept = (v.build set).run := by
  obtain ⟨other, hother, rfl⟩ := h.kept kept hk
  rw [h.eq_of_version hother hmem hv]

theorem snapshot_eq_build (h : Sound v c) :
    c.store.snapshot v = (v.build c.store.published).run :=
  Store.snapshot_eq_build_of_current fun _ hk hv => h.kept_eq_build hk h.published_mem hv

/-- Soundness lasts, in whatever order the accesses come. -/
theorem after (h : Sound v c) (accesses : List Access) : Sound v (c.after v accesses) where
  toOrdered := h.toOrdered.after v accesses
  kept kept hk := by
    rcases kept_after hk with hk | hbuilt
    · obtain ⟨set, hmem, heq⟩ := h.kept kept hk
      exact ⟨set, (past_suffix_after v c accesses).subset hmem, heq⟩
    · exact hbuilt

theorem access (h : Sound v c) (a : Access) : Sound v (c.access v a) := h.after [a]

end Sound

/-! ### Steps as accesses -/

theorem moved_moved_of_same {s t : Store} (h : s.published = c.store.published) :
    (c.moved s).moved t = c.moved t := by
  have hv : s.version = c.store.version := congrArg SourceSet.version h
  simp only [moved, hv, if_true]

theorem moved_moved_of_published {s t : Store} (h : t.published = s.published) :
    (c.moved s).moved t = c.moved t := by
  have hv : t.version = s.version := congrArg SourceSet.version h
  simp only [moved, hv, if_true, h]

/-- Publishing and then dropping what is kept. -/
theorem access_drop_publishing (v : View Id) (c : Course) {s : Store} (h : s.cached = none) :
    (c.publishing s).access v .drop = c.moved s := by
  have hs : { s with cached := none } = s := by rw [← h]
  calc (c.publishing s).access v .drop
      = (c.publishing s).moved { s with cached := none } := rfl
    _ = c.moved { s with cached := none } := moved_moved_of_published rfl
    _ = c.moved s := by rw [hs]

/-- Keeping the build of a set of the past. -/
theorem exists_access_keep (v : View Id) {set : SourceSet} (hmem : set ∈ c.past) :
    ∃ age, c.access v (.keep age) = c.moved (c.store.keep (v.build set).run) := by
  obtain ⟨age, hage⟩ := List.mem_iff_getElem?.1 hmem
  exact ⟨age, by simp only [access, hage]⟩

/-- Reading the snapshot is keeping the build of the last set. -/
theorem moved_seen (h : Sound v c) : c.moved (c.store.seen v) = c.access v (.keep 0) := by
  obtain ⟨older, hpast⟩ := List.head?_eq_some_iff.1 h.published
  simp only [access, hpast, List.getElem?_cons_zero]
  rw [Store.seen_eq_keep]

/-- A change reads the snapshot, publishes, drops what is kept, and reads again. -/
theorem moved_change (h : Sound v c) {s : Store} {a : Access} (hc : s.cached = none)
    (ha : (c.moved (c.store.seen v)).access v a = (c.moved (c.store.seen v)).publishing s) :
    c.moved (s.seen v) = c.after v [.keep 0, a, .drop, .keep 0] := by
  have hsound : Sound v (c.moved s) := by
    rw [← moved_moved_of_same (Store.published_seen v c.store), ← access_drop_publishing v _ hc,
      ← ha, moved_seen h]
    exact ((h.access _).access _).access _
  calc c.moved (s.seen v)
      = (c.moved s).moved (s.seen v) := (moved_moved_of_published (Store.published_seen v s)).symm
    _ = (c.moved s).access v (.keep 0) := moved_seen hsound
    _ = (((c.moved (c.store.seen v)).access v a).access v .drop).access v (.keep 0) := by
        rw [ha, access_drop_publishing v _ hc, moved_moved_of_same (Store.published_seen v c.store)]
    _ = c.after v [.keep 0, a, .drop, .keep 0] := by rw [moved_seen h]; rfl

theorem access_commit_seen {w : Writable} (hw : c.store.writable = some w)
    (changes : List Change) :
    (c.moved (c.store.seen v)).access v (.commit changes) =
      (c.moved (c.store.seen v)).publishing
        ((c.store.seen v).replaceWritable w (c.store.written w changes)) := by
  simp only [access, store_moved, Store.writable_seen, hw]
  rw [Store.written, Store.version_seen, ← Store.written]

theorem moved_self (c : Course) : c.moved c.store = c := by
  simp only [moved, if_true]

/-- Every step of a course is some accesses. -/
theorem Step.accesses (h : Sound v c) {providers : List Provider} {os : List Occurrence}
    {o : Occurrence} {d : Course} (step : Step v providers os c o d) :
    ∃ accesses, d = c.after v accesses := by
  cases step with
  | commit changes =>
    rcases Store.commit_cases v changes c.store with ⟨-, hc⟩ | ⟨w, -, hw, -⟩
    · exact ⟨[], by rw [hc]; exact c.moved_self⟩
    · refine ⟨[.keep 0, .commit changes, .drop, .keep 0], ?_⟩
      simp only [Store.commit_of_writable hw]
      exact moved_change h rfl (access_commit_seen hw changes)
  | refresh => exact ⟨[.refresh, .drop], (access_drop_publishing v c rfl).symm⟩
  | start => exact ⟨[.start], rfl⟩
  | @finish number loaded _ =>
    rcases Store.finishReload_cases v providers number loaded c.store with
      hf | ⟨-, hf⟩ | ⟨event, -, hf, -⟩
    · exact ⟨[], by rw [hf]; exact c.moved_self⟩
    · exact ⟨[.keep 0], by rw [hf]; exact moved_seen h⟩
    · refine ⟨[.keep 0, .adopt number loaded, .drop, .keep 0], ?_⟩
      simp only [hf]
      exact moved_change h rfl rfl
  | read => exact ⟨[.keep 0], moved_seen h⟩
  | keep hmem =>
    obtain ⟨age, hage⟩ := exists_access_keep v hmem
    exact ⟨[.keep age], hage.symm⟩

/-- A reading that comes to its end late puts nothing in the place of a newer snapshot. -/
theorem kept_access_keep (v : View Id) (c : Course) (age : Nat) {kept : Snapshot}
    (hk : c.store.cached = some kept) :
    ∃ kept', (c.access v (.keep age)).store.cached = some kept' ∧ kept.version ≤ kept'.version ∧
      ∀ set, c.past[age]? = some set → set.version ≤ kept.version → kept' = kept := by
  simp only [access]
  split
  · rename_i hnone
    exact ⟨kept, hk, Nat.le_refl _, fun set hset => by simp [hnone] at hset⟩
  · rename_i set hset
    by_cases hle : set.version ≤ kept.version
    · rw [store_moved, Store.keep_eq_self hk hle]
      exact ⟨kept, hk, Nat.le_refl _, fun _ _ _ => rfl⟩
    · rw [store_moved, Store.keep_eq_of_lt hk (Nat.lt_of_not_le hle)]
      refine ⟨_, rfl, Nat.le_of_not_le hle, fun other hother hle' => absurd hle' ?_⟩
      rwa [← Option.some.inj (hset.symm.trans hother)]

end Course

end LayeredConfig
