import LayeredConfig.Proofs.Snapshot.Exactness

/-! # Changes one behind the other

Two changes of a key come to one or to none: what was added and then updated was added, what was
added and then removed is nothing, and neither is what was brought back to its first value
(`KeyChange.andThen`). So the events from one snapshot to a second and from there to a third come,
key by key, to the event from the first to the third (`between_andThen`). -/

namespace LayeredConfig

namespace KeyChange

/-- What two changes of a key come to, one behind the other. -/
def andThen (c d : KeyChange) : Option KeyChange :=
  match c.kind, d.kind with
  | .added, .removed => none
  | .added, _ => some ⟨c.key, .added, c.old, d.new⟩
  | _, .removed => some ⟨c.key, .removed, c.old, d.new⟩
  | _, _ => if c.old = d.new then none else some ⟨c.key, .updated, c.old, d.new⟩

/-- What comes of a key that each of two events may tell of. -/
def composed : Option KeyChange → Option KeyChange → Option KeyChange
  | none, none => none
  | some c, none => some c
  | none, some d => some d
  | some c, some d => c.andThen d

theorem between_self (key : String) (value : Option String) : between key value value = none := by
  cases value with
  | none => rfl
  | some text => exact if_pos rfl

theorem eq_updated_of_between {key a b : String} {c : KeyChange}
    (h : between key (some a) (some b) = some c) : c = ⟨key, .updated, some a, some b⟩ := by
  unfold between at h
  dsimp only at h
  split at h
  · cases h
  · exact (Option.some.inj h).symm

theorem between_some (key a b : String) : between key (some a) (some b) =
    if some a = some b then none else some ⟨key, .updated, some a, some b⟩ := by
  simp only [between, Option.some.injEq]

/-- Two changes of a key through a value in between come to the change between the ends. -/
theorem andThen_of_between {key : String} {x y z : Option String} {c d : KeyChange}
    (hc : between key x y = some c) (hd : between key y z = some d) :
    c.andThen d = between key x z := by
  cases y with
  | none =>
    cases x with
    | none => cases hc
    | some a =>
      cases z with
      | none => cases hd
      | some b =>
        cases hc
        cases hd
        exact (between_some key a b).symm
  | some m =>
    cases x with
    | none =>
      cases hc
      cases z with
      | none =>
        cases hd
        rfl
      | some b =>
        cases eq_updated_of_between hd
        rfl
    | some a =>
      cases eq_updated_of_between hc
      cases z with
      | none =>
        cases hd
        rfl
      | some b =>
        cases eq_updated_of_between hd
        exact (between_some key a b).symm

/-- A key that goes from one value to a second and on to a third has gone to the third. -/
theorem composed_between (key : String) (x y z : Option String) :
    composed (between key x y) (between key y z) = between key x z := by
  cases hc : between key x y with
  | none =>
    rw [eq_of_between_eq_none hc]
    cases between key y z <;> rfl
  | some c =>
    cases hd : between key y z with
    | none =>
      rw [← eq_of_between_eq_none hd, hc]
      rfl
    | some d => exact andThen_of_between hc hd

end KeyChange

namespace ChangeEvent

/-- The keys that either of two events tells of, in order. -/
def keysOfBoth (e f : ChangeEvent) : List String :=
  (KeyMap.ofList ((e.changes ++ f.changes).map fun c => (c.key, ()))).keys

/-- What two events come to, one behind the other. -/
def andThen (e f : ChangeEvent) : ChangeEvent where
  oldVersion := e.oldVersion
  newVersion := f.newVersion
  changes := (keysOfBoth e f).filterMap fun key => KeyChange.composed (e.change? key) (f.change? key)

theorem mem_keysOfBoth {e f : ChangeEvent} {key : String} :
    key ∈ keysOfBoth e f ↔ ∃ c, (c ∈ e.changes ∨ c ∈ f.changes) ∧ c.key = key := by
  unfold keysOfBoth
  rw [KeyMap.mem_keys_iff, KeyMap.get?_ofList, List.lookup_isSome_iff]
  constructor
  · rintro ⟨p, hp, hkey⟩
    obtain ⟨c, hc, rfl⟩ := List.mem_map.1 (List.mem_reverse.1 hp)
    exact ⟨c, List.mem_append.1 hc, (eq_of_beq hkey).symm⟩
  · rintro ⟨c, hc, rfl⟩
    have hmem := List.mem_map_of_mem (f := fun c : KeyChange => (c.key, ())) (List.mem_append.2 hc)
    exact ⟨_, List.mem_reverse.2 hmem, beq_self_eq_true c.key⟩

/-- A key that differs between the first snapshot and the third one is told of by one of the two
events. -/
theorem mem_keysOfBoth_between {first second third : Snapshot} {key : String}
    (h : first.get? key ≠ third.get? key) :
    key ∈ keysOfBoth (between first second) (between second third) := by
  rw [mem_keysOfBoth]
  by_cases hfirst : first.get? key = second.get? key
  · obtain ⟨c, hc, hkey⟩ := exists_mem_changes_iff.2 (hfirst ▸ h)
    exact ⟨c, .inr hc, hkey⟩
  · obtain ⟨c, hc, hkey⟩ := exists_mem_changes_iff.2 hfirst
    exact ⟨c, .inl hc, hkey⟩

/-- **Events compose.** The event from one snapshot to a second one and the event from there to a
third come to the event from the first to the third. -/
theorem between_andThen (first second third : Snapshot) :
    (between first second).andThen (between second third) = between first third := by
  have hcomposed : ∀ key, KeyChange.composed ((between first second).change? key)
      ((between second third).change? key) =
        KeyChange.between key (first.get? key) (third.get? key) := by
    intro key
    rw [change?_between, change?_between, KeyChange.composed_between]
  have hchanges : ((between first second).andThen (between second third)).changes =
      (between first third).changes := by
    unfold andThen
    simp only [hcomposed]
    have hkeys : (keysOfBoth (between first second) (between second third)).Pairwise (· < ·) :=
      List.pairwise_map.2 (KeyMap.sorted _)
    refine changes_ext (pairwise_lt_filterMap hkeys first.get? third.get?)
      (pairwise_lt_changes first third) fun c => ?_
    rw [List.mem_filterMap, mem_changes_iff]
    constructor
    · rintro ⟨key, -, h⟩
      rwa [(KeyChange.of_between h).1]
    · intro h
      exact ⟨c.key, mem_keysOfBoth_between (KeyChange.of_between h).2.2.2.ne, h⟩
  exact congrArg (ChangeEvent.mk _ _) hchanges

/-- Whatever the versions, an event between the ends is what comes of two events through a snapshot
in between, key by key. -/
theorem between_of_halves {first second third last : Snapshot} (h : third.values = last.values) :
    (between first last).changes =
        ((between first second).andThen (between second third)).changes ∧
      ∀ key, (between first last).change? key = KeyChange.composed
        ((between first second).change? key) ((between second third).change? key) := by
  have hget : last.get? = third.get? := congrArg KeyMap.get? h.symm
  constructor
  · rw [between_andThen]
    unfold between
    rw [hget, h]
  · intro key
    rw [change?_between, change?_between, change?_between, KeyChange.composed_between, hget]

end ChangeEvent

end LayeredConfig
