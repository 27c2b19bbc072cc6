import LayeredConfig.Snapshot

/-! # Replaying changes

An event tells of the keys that changed from one snapshot to another, with their values before and
after. Whoever has the old values can make the changes one after the other, each on what it finds:
the old value that the change tells of, and a kind that fits both values. What this leads to are the
new values (`replay?_between`). -/

namespace LayeredConfig

/-- Whether a key that had one value and has another was added, removed or updated. -/
def ChangeKind.Fits : ChangeKind → Option String → Option String → Prop
  | added, old, new => old = none ∧ new ≠ none
  | removed, old, new => old ≠ none ∧ new = none
  | updated, old, new => old ≠ none ∧ new ≠ none ∧ old ≠ new

instance (kind : ChangeKind) (old new : Option String) : Decidable (kind.Fits old new) := by
  cases kind <;> exact inferInstanceAs (Decidable (_ ∧ _))

namespace KeyChange

/-- Makes a change, if the old value that it tells of is there and its kind is right. -/
def replay? (ps : Properties) (c : KeyChange) : Option Properties :=
  if ps.get? c.key = c.old ∧ c.kind.Fits c.old c.new then
    match c.new with
    | some value => some (ps.insert c.key value)
    | none => some (ps.erase c.key)
  else none

/-- A change tells of its key, of both values, and of a kind that fits them. -/
theorem of_between {key : String} {old new : Option String} {c : KeyChange}
    (h : between key old new = some c) :
    c.key = key ∧ c.old = old ∧ c.new = new ∧ c.kind.Fits old new := by
  unfold between at h
  split at h
  · cases h
    exact ⟨rfl, rfl, rfl, rfl, by simp⟩
  · cases h
    exact ⟨rfl, rfl, rfl, by simp, rfl⟩
  · split at h
    · cases h
    · rename_i hne
      cases h
      exact ⟨rfl, rfl, rfl, by simp, by simp, by simpa using hne⟩
  · cases h

theorem eq_of_between_eq_none {key : String} {old new : Option String}
    (h : between key old new = none) : old = new := by
  unfold between at h
  split at h
  · cases h
  · cases h
  · split at h
    · rename_i heq
      rw [heq]
    · cases h
  · rfl

/-- A change puts the new value in the place of the old one. -/
theorem exists_replay?_of_between {key : String} {old new : Option String} {c : KeyChange}
    (h : between key old new = some c) {ps : Properties} (hps : ps.get? key = old) :
    ∃ qs, replay? ps c = some qs ∧ ∀ k, qs.get? k = if k = key then new else ps.get? k := by
  obtain ⟨rfl, rfl, rfl, hfits⟩ := of_between h
  unfold replay?
  rw [if_pos ⟨hps, hfits⟩]
  cases c.new with
  | some value => exact ⟨_, rfl, fun k => KeyMap.get?_insert ps c.key k value⟩
  | none => exact ⟨_, rfl, fun k => KeyMap.get?_erase ps c.key k⟩

end KeyChange

namespace ChangeEvent

/-- Makes all changes of an event. -/
def replay? (ps : Properties) (e : ChangeEvent) : Option Properties :=
  e.changes.foldlM KeyChange.replay? ps

theorem mem_keysOf {old new : Properties} {key : String} :
    key ∈ keysOf old new ↔ (old.get? key).isSome ∨ (new.get? key).isSome := by
  unfold keysOf KeyMap.toList
  rw [KeyMap.mem_keys_iff, KeyMap.get?_insertAll, KeyMap.lookup_reverse_entries, Option.isSome_or,
    Bool.or_eq_true]

/-- The changes of some keys, made where these have their old values, give them their new ones and
leave the other keys alone. -/
theorem exists_replay_changes (old new : Properties) {keys : List String} (hkeys : keys.Nodup)
    {ps : Properties} (hps : ∀ key ∈ keys, ps.get? key = old.get? key) :
    ∃ qs, (keys.filterMap fun key => KeyChange.between key (old.get? key) (new.get? key)).foldlM
        KeyChange.replay? ps = some qs ∧
      ∀ k, qs.get? k = if k ∈ keys then new.get? k else ps.get? k := by
  induction keys generalizing ps with
  | nil => exact ⟨ps, rfl, fun k => (if_neg List.not_mem_nil).symm⟩
  | cons key rest ih =>
    obtain ⟨hfresh, hrest⟩ := List.nodup_cons.1 hkeys
    have hkey := hps key List.mem_cons_self
    rw [List.filterMap_cons]
    cases hbetween : KeyChange.between key (old.get? key) (new.get? key) with
    | none =>
      have hsame := KeyChange.eq_of_between_eq_none hbetween
      obtain ⟨qs, hqs, hget⟩ := ih hrest fun k hk => hps k (List.mem_cons_of_mem _ hk)
      refine ⟨qs, hqs, fun k => ?_⟩
      rw [hget]
      by_cases hk : k = key
      · rw [if_neg (hk ▸ hfresh), if_pos (hk ▸ List.mem_cons_self), hk, hkey, hsame]
      · simp [hk]
    | some c =>
      obtain ⟨ms, hms, hmid⟩ := KeyChange.exists_replay?_of_between hbetween hkey
      have hold : ∀ k ∈ rest, ms.get? k = old.get? k := by
        intro k hk
        have hne : k ≠ key := fun h => hfresh (h ▸ hk)
        rw [hmid, if_neg hne]
        exact hps k (List.mem_cons_of_mem _ hk)
      obtain ⟨qs, hqs, hget⟩ := ih hrest hold
      refine ⟨qs, ?_, fun k => ?_⟩
      · rw [List.foldlM_cons, hms]
        exact hqs
      · rw [hget, hmid]
        by_cases hk : k = key
        · simp [hk, hfresh]
        · simp [hk]

/-- The changes from one snapshot to another lead from the values of the one to those of the
other. -/
theorem replay?_between (old new : Snapshot) :
    (between old new).replay? old.values = some new.values := by
  have hkeys : (keysOf old.values new.values).Nodup := KeyMap.nodup_keys _
  obtain ⟨qs, hqs, hget⟩ := exists_replay_changes old.values new.values hkeys fun _ _ => rfl
  have heq : qs = new.values := by
    refine KeyMap.ext_get? fun k => ?_
    rw [hget]
    split
    · rfl
    · rename_i hk
      have hnone := not_or.1 (mt mem_keysOf.2 hk)
      rw [Option.not_isSome_iff_eq_none.1 hnone.1, Option.not_isSome_iff_eq_none.1 hnone.2]
  rw [← heq]
  exact hqs

/-- Nothing changes from a snapshot to itself. -/
theorem between_self (s : Snapshot) : between s s = ⟨s.version, s.version, []⟩ := by
  have hnone : ∀ key, KeyChange.between key (s.get? key) (s.get? key) = none := by
    intro key
    unfold KeyChange.between
    cases s.get? key with
    | none => rfl
    | some a => exact if_pos rfl
  have hchanges : (keysOf s.values s.values).filterMap
      (fun key => KeyChange.between key (s.get? key) (s.get? key)) = [] :=
    List.filterMap_eq_nil_iff.2 fun key _ => hnone key
  unfold between
  rw [hchanges]

end ChangeEvent

end LayeredConfig
