import LayeredConfig.Proofs.Snapshot.Difference

/-! # Events are exact

The event between two snapshots lists the keys that differ and no others, each of them once, in key
order and with what either snapshot has for it. Changes can be unmade as they were made
(`KeyChange.replay?_inverse`), so an event leads from the old values to the new ones and back
(`between_exact`). In key order there is one list of given changes only (`changes_ext`). -/

namespace LayeredConfig

/-- What happens to a key when a change is unmade. -/
def ChangeKind.inverse : ChangeKind → ChangeKind
  | added => removed
  | removed => added
  | updated => updated

theorem ChangeKind.Fits.ne {kind : ChangeKind} {old new : Option String} (h : kind.Fits old new) :
    old ≠ new := by
  cases kind with
  | added => exact h.1 ▸ h.2.symm
  | removed => exact h.2 ▸ h.1
  | updated => exact h.2.2

theorem ChangeKind.fits_inverse {kind : ChangeKind} {old new : Option String} :
    kind.inverse.Fits new old ↔ kind.Fits old new := by
  cases kind with
  | added => exact And.comm
  | removed => exact And.comm
  | updated =>
    constructor
    · rintro ⟨hnew, hold, hne⟩
      exact ⟨hold, hnew, hne.symm⟩
    · rintro ⟨hold, hnew, hne⟩
      exact ⟨hnew, hold, hne.symm⟩

namespace KeyChange

variable {ps qs : Properties} {c : KeyChange}

/-- The change back. -/
def inverse (c : KeyChange) : KeyChange := ⟨c.key, c.kind.inverse, c.new, c.old⟩

/-- A key that had one value and has another is told of by one change. -/
theorem between_eq_some_iff {key : String} {old new : Option String} :
    between key old new = some c ↔
      c.key = key ∧ c.old = old ∧ c.new = new ∧ c.kind.Fits old new := by
  refine ⟨of_between, ?_⟩
  obtain ⟨key, kind, old, new⟩ := c
  rintro ⟨rfl, rfl, rfl, hfits⟩
  cases kind with
  | added =>
    obtain ⟨rfl, hnew⟩ := hfits
    obtain ⟨text, rfl⟩ := Option.ne_none_iff_exists'.1 hnew
    rfl
  | removed =>
    obtain ⟨hold, rfl⟩ := hfits
    obtain ⟨text, rfl⟩ := Option.ne_none_iff_exists'.1 hold
    rfl
  | updated =>
    obtain ⟨hold, hnew, hne⟩ := hfits
    obtain ⟨before, rfl⟩ := Option.ne_none_iff_exists'.1 hold
    obtain ⟨behind, rfl⟩ := Option.ne_none_iff_exists'.1 hnew
    exact if_neg fun heq => hne (congrArg some heq)

/-- A change can be made where its key has the old value, and gives it the new one. -/
theorem replay?_eq_some_iff :
    c.replay? ps = some qs ↔ ps.get? c.key = c.old ∧ c.kind.Fits c.old c.new ∧
      ∀ k, qs.get? k = if k = c.key then c.new else ps.get? k := by
  have hmade : c.kind.Fits c.old c.new → ps.get? c.key = c.old →
      ∃ rs, c.replay? ps = some rs ∧ ∀ k, rs.get? k = if k = c.key then c.new else ps.get? k :=
    fun hfits hold =>
      exists_replay?_of_between (between_eq_some_iff.2 ⟨rfl, rfl, rfl, hfits⟩) hold
  constructor
  · intro h
    by_cases hcan : ps.get? c.key = c.old ∧ c.kind.Fits c.old c.new
    · obtain ⟨rs, hrs, hget⟩ := hmade hcan.2 hcan.1
      cases hrs.symm.trans h
      exact ⟨hcan.1, hcan.2, hget⟩
    · unfold replay? at h
      rw [if_neg hcan] at h
      cases h
  · rintro ⟨hold, hfits, hget⟩
    obtain ⟨rs, hrs, hget'⟩ := hmade hfits hold
    have heq : rs = qs := KeyMap.ext_get? fun k => (hget' k).trans (hget k).symm
    rw [hrs, heq]

theorem replay?_of_inverse (h : c.replay? ps = some qs) : c.inverse.replay? qs = some ps := by
  obtain ⟨hold, hfits, hget⟩ := replay?_eq_some_iff.1 h
  refine replay?_eq_some_iff.2 ⟨(hget c.key).trans (if_pos rfl), ChangeKind.fits_inverse.2 hfits,
    fun k => ?_⟩
  show ps.get? k = if k = c.key then c.old else qs.get? k
  rw [hget]
  by_cases hk : k = c.key
  · rw [if_pos hk, hk, hold]
  · rw [if_neg hk, if_neg hk]

theorem inverse_inverse (c : KeyChange) : c.inverse.inverse = c := by
  obtain ⟨key, kind, old, new⟩ := c
  cases kind <;> rfl

/-- Making a change back is unmaking it. -/
theorem replay?_inverse : c.inverse.replay? qs = some ps ↔ c.replay? ps = some qs :=
  ⟨fun h => c.inverse_inverse ▸ replay?_of_inverse h, replay?_of_inverse⟩

end KeyChange

namespace ChangeEvent

variable {ps qs : Properties}

/-- The event back: the changes are unmade, the last one first. -/
def inverse (e : ChangeEvent) : ChangeEvent :=
  ⟨e.newVersion, e.oldVersion, (e.changes.map KeyChange.inverse).reverse⟩

/-- Replaying an event back undoes it. -/
theorem replay?_inverse {e : ChangeEvent} :
    e.inverse.replay? qs = some ps ↔ e.replay? ps = some qs := by
  unfold replay? inverse
  dsimp only
  induction e.changes generalizing ps with
  | nil =>
    rw [List.map_nil, List.reverse_nil, List.foldlM_nil, List.foldlM_nil]
    exact eq_comm
  | cons c rest ih =>
    rw [List.map_cons, List.reverse_cons, List.foldlM_append, List.foldlM_cons]
    simp only [Option.bind_eq_bind, Option.bind_eq_some_iff, List.foldlM_cons, List.foldlM_nil,
      Option.pure_def, Option.some.injEq, exists_eq_right, ih, KeyChange.replay?_inverse]
    exact exists_congr fun ms => And.comm

/-! ### What is listed -/

/-- In key order there is one list of given changes only. -/
theorem changes_ext {cs ds : List KeyChange} (hcs : cs.Pairwise fun c d => c.key < d.key)
    (hds : ds.Pairwise fun c d => c.key < d.key) (h : ∀ c, c ∈ cs ↔ c ∈ ds) : cs = ds := by
  have hnodup : ∀ {es : List KeyChange}, es.Pairwise (fun c d => c.key < d.key) → es.Nodup := by
    intro es hes
    refine List.Pairwise.imp (fun {c d} hlt heq => ?_) hes
    exact String.lt_irrefl d.key (heq ▸ hlt)
  refine List.Perm.eq_of_pairwise (fun c d _ _ hcd hdc => ?_) hcs hds
    ((List.perm_ext_iff_of_nodup (hnodup hcs) (hnodup hds)).2 h)
  exact absurd (String.lt_trans hcd hdc) (String.lt_irrefl _)

/-- The changes of keys that come in order come in order themselves. -/
theorem pairwise_lt_filterMap {keys : List String} (h : keys.Pairwise (· < ·))
    (old new : String → Option String) :
    (keys.filterMap fun key => KeyChange.between key (old key) (new key)).Pairwise
      fun c d => c.key < d.key := by
  refine List.pairwise_filterMap.2 (h.imp fun hlt c hc d hd => ?_)
  rw [(KeyChange.of_between hc).1, (KeyChange.of_between hd).1]
  exact hlt

theorem pairwise_lt_changes (old new : Snapshot) :
    (between old new).changes.Pairwise fun c d => c.key < d.key :=
  pairwise_lt_filterMap (List.pairwise_map.2 (KeyMap.sorted _)) old.get? new.get?

variable {old new : Snapshot}

/-- A change is listed if it is that of its key from one snapshot to the other. -/
theorem mem_changes_iff {c : KeyChange} :
    c ∈ (between old new).changes ↔
      KeyChange.between c.key (old.get? c.key) (new.get? c.key) = some c := by
  refine List.mem_filterMap.trans ⟨?_, fun h => ⟨c.key, ?_, h⟩⟩
  · rintro ⟨key, -, h⟩
    rwa [(KeyChange.of_between h).1]
  · have hne := (KeyChange.of_between h).2.2.2.ne
    refine mem_keysOf.2 ?_
    cases hold : old.get? c.key with
    | some text => exact .inl (Option.isSome_iff_exists.2 ⟨text, hold⟩)
    | none => exact .inr (Option.ne_none_iff_isSome.1 fun hnew => hne (hold.trans hnew.symm))

/-- The keys that are listed are those that differ. -/
theorem exists_mem_changes_iff {key : String} :
    (∃ c ∈ (between old new).changes, c.key = key) ↔ old.get? key ≠ new.get? key := by
  constructor
  · rintro ⟨c, hc, rfl⟩
    exact (KeyChange.of_between (mem_changes_iff.1 hc)).2.2.2.ne
  · intro hne
    cases h : KeyChange.between key (old.get? key) (new.get? key) with
    | none => exact absurd (KeyChange.eq_of_between_eq_none h) hne
    | some c =>
      have hkey := (KeyChange.of_between h).1
      exact ⟨c, mem_changes_iff.2 (by rwa [hkey]), hkey⟩

/-- The change that is found for a key is what has become of it. -/
theorem change?_between (key : String) :
    (between old new).change? key = KeyChange.between key (old.get? key) (new.get? key) := by
  refine Option.ext fun c => ?_
  unfold change?
  constructor
  · intro h
    have hkey : c.key = key := by simpa using List.find?_some h
    rw [← hkey]
    exact mem_changes_iff.1 (List.mem_of_find?_eq_some h)
  · intro h
    have hkey := (KeyChange.of_between h).1
    have hmem : c ∈ (between old new).changes := mem_changes_iff.2 (by rwa [hkey])
    obtain ⟨before, behind, hsplit⟩ := List.append_of_mem hmem
    have hsorted := pairwise_lt_changes old new
    rw [hsplit] at hsorted ⊢
    refine List.find?_eq_some_iff_append.2 ⟨by simpa using hkey, before, behind, rfl, fun d hd => ?_⟩
    have hlt := (List.pairwise_append.1 hsorted).2.2 d hd c List.mem_cons_self
    have hne : d.key ≠ key := fun heq => String.lt_irrefl _ (heq ▸ hkey ▸ hlt)
    simpa using hne

/-- Nothing is listed between snapshots of the same values, and between no others. -/
theorem isEmpty_between : (between old new).isEmpty = true ↔ old.values = new.values := by
  constructor
  · intro h
    have hreplay := replay?_between old new
    unfold replay? at hreplay
    rw [List.isEmpty_iff.1 h] at hreplay
    exact Option.some.inj hreplay
  · intro h
    refine List.isEmpty_iff.2 (List.eq_nil_iff_forall_not_mem.2 fun c hc => ?_)
    refine (KeyChange.of_between (mem_changes_iff.1 hc)).2.2.2.ne ?_
    unfold Snapshot.get?
    rw [h]

/-- **An event is an exact difference.** Between any two snapshots the changes come in strictly
increasing key order. A key is listed if it has a value in one snapshot that it does not have in the
other, with both values and as added, removed or updated. Made one after the other, the changes lead
from the old values to the new ones, and unmade they lead back. There are none if the values are the
same, and only then. The change of every key that is listed is found, and no other is. -/
theorem between_exact (old new : Snapshot) :
    (between old new).changes.Pairwise (fun c d => c.key < d.key) ∧
    (∀ key, (∃ c ∈ (between old new).changes, c.key = key) ↔ old.get? key ≠ new.get? key) ∧
    (∀ c ∈ (between old new).changes,
      c.old = old.get? c.key ∧ c.new = new.get? c.key ∧ c.kind.Fits c.old c.new) ∧
    (between old new).replay? old.values = some new.values ∧
    (between old new).inverse.replay? new.values = some old.values ∧
    ((between old new).isEmpty = true ↔ old.values = new.values) ∧
    (∀ key c, (between old new).change? key = some c ↔
      c ∈ (between old new).changes ∧ c.key = key) ∧
    (between old new).oldVersion = old.version ∧ (between old new).newVersion = new.version := by
  refine ⟨pairwise_lt_changes old new, fun key => exists_mem_changes_iff, fun c hc => ?_,
    replay?_between old new, replay?_inverse.2 (replay?_between old new), isEmpty_between,
    fun key c => ?_, rfl, rfl⟩
  · obtain ⟨-, hold, hnew, hfits⟩ := KeyChange.of_between (mem_changes_iff.1 hc)
    exact ⟨hold, hnew, by rwa [hold, hnew]⟩
  · rw [change?_between]
    constructor
    · intro h
      have hkey := (KeyChange.of_between h).1
      exact ⟨mem_changes_iff.2 (by rwa [hkey]), hkey⟩
    · rintro ⟨hc, rfl⟩
      exact mem_changes_iff.1 hc

end ChangeEvent

end LayeredConfig
