import LayeredConfig.SourceSet

/-! # Precedence

A single look-up goes through the sources from the highest down, and a merge from the lowest up. The
look-up is answered by its winner (`lookup_eq_winner`), the highest source with a text, or else the
highest with a null; a merge holds for each key what the highest source enumerates for it
(`get?_merge`). Where sources answer for a key as they enumerate it, and the winner is enumerated,
the two are the same (`get?_merge_eq_lookup`). -/

namespace LayeredConfig

/-- Whether a source answers for a key as it does when it is enumerated. -/
def Source.IsConsistent (s : Source) (key : String) : Prop :=
  (s.get key).skip.join = (s.properties.skip.bind (·.get? key)).map fun text => .of key text s.name

namespace Registered

/-- What the source adds to a merge under a key. -/
def scanned? (r : Registered) (key : String) : Option PropertyValue :=
  if r.source.isScannable then
    (r.source.properties.skip.bind (·.get? key)).map fun text => r.annotate (.of key text r.name)
  else none

theorem mem_scan {r : Registered} {key : String} {value : PropertyValue} :
    (key, value) ∈ r.scan ↔ r.scanned? key = some value := by
  unfold scan scanned?
  split
  · cases r.source.properties with
    | error e => exact ⟨fun h => absurd h List.not_mem_nil, fun h => nomatch h⟩
    | ok ps =>
      constructor
      · intro h
        obtain ⟨⟨k, text⟩, hmem, heq⟩ := List.mem_map.1 h
        obtain ⟨rfl, rfl⟩ := Prod.mk.inj heq
        show (ps.get? k).map _ = _
        rw [KeyMap.mem_entries_iff.1 hmem]
        rfl
      · intro h
        obtain ⟨text, htext, rfl⟩ := Option.map_eq_some_iff.1 h
        exact List.mem_map.2 ⟨(key, text), KeyMap.mem_entries_iff.2 htext, rfl⟩
  · exact ⟨fun h => absurd h List.not_mem_nil, fun h => nomatch h⟩

theorem pairwise_scan (r : Registered) : r.scan.Pairwise fun a b => a.1 ≠ b.1 := by
  unfold scan
  split
  · split
    · rename_i ps _
      exact List.pairwise_map.2 ps.pairwise_entries_ne
    · exact .nil
  · exact .nil

theorem lookup_reverse_scan (r : Registered) (key : String) :
    r.scan.reverse.lookup key = r.scanned? key := by
  rw [← KeyMap.get?_ofList]
  exact Option.ext fun value => (KeyMap.get?_ofList_eq_some r.pairwise_scan).trans mem_scan

theorem key_scanned? {r : Registered} {key : String} {value : PropertyValue}
    (h : r.scanned? key = some value) : value.key = key := by
  unfold scanned? at h
  split at h
  · obtain ⟨text, -, rfl⟩ := Option.map_eq_some_iff.1 h
    rfl
  · cases h

/-- A consistent source that is enumerated adds its answer. -/
theorem scanned?_eq_lookup {r : Registered} {key : String} (hs : r.source.isScannable)
    (hc : r.source.IsConsistent key) : r.scanned? key = r.lookup key := by
  unfold scanned? lookup
  rw [if_pos hs, hc, Option.map_map]
  rfl

/-- Whether the source has a text for a key. -/
def hasText (r : Registered) (key : String) : Bool :=
  (r.lookup key).any fun value => !value.isNull

/-- A source that is consistent, or not enumerated, adds nothing under a key without a text. -/
theorem scanned?_eq_none {r : Registered} {key : String}
    (hc : r.source.isScannable → r.source.IsConsistent key) (h : r.hasText key = false) :
    r.scanned? key = none := by
  by_cases hs : r.source.isScannable
  · rw [scanned?_eq_lookup hs (hc hs)]
    unfold hasText lookup at h
    unfold lookup
    rw [hc hs] at h ⊢
    cases htext : r.source.properties.skip.bind (·.get? key) with
    | none => rfl
    | some text =>
      rw [htext] at h
      cases h
  · exact if_neg hs

end Registered

theorem get?_foldl_insertAll (entries : List Registered) (m : KeyMap PropertyValue) (key : String) :
    (entries.foldl (fun merged r => merged.insertAll r.scan) m).get? key =
      (entries.reverse.findSome? (·.scanned? key)).or (m.get? key) := by
  induction entries generalizing m with
  | nil => rfl
  | cons r rest ih =>
    rw [List.foldl_cons, ih, KeyMap.get?_insertAll, Registered.lookup_reverse_scan,
      List.reverse_cons, List.findSome?_append, Option.or_assoc]
    congr 1
    cases h : r.scanned? key <;> simp [h]

namespace SourceSet

variable {set : SourceSet} {key : String}

/-- A merge holds for a key what the highest source adds. -/
theorem get?_merge (set : SourceSet) (key : String) :
    set.merge.get? key = set.entries.reverse.findSome? (·.scanned? key) :=
  (get?_foldl_insertAll set.entries ∅ key).trans Option.or_none

theorem key_of_get?_merge {value : PropertyValue} (h : set.merge.get? key = some value) :
    value.key = key := by
  rw [get?_merge] at h
  obtain ⟨r, -, hr⟩ := List.exists_of_findSome?_eq_some h
  exact Registered.key_scanned? hr

/-- The source that answers a look-up: the highest that has a text for the key, or else the highest
that has a null. -/
def winner? (set : SourceSet) (key : String) : Option Registered :=
  (set.entries.reverse.find? (·.hasText key)).or
    (set.entries.reverse.find? fun r => (r.lookup key).isSome)

theorem mem_of_winner? {r : Registered} (h : set.winner? key = some r) :
    r ∈ set.entries ∧ (r.lookup key).isSome := by
  unfold winner? at h
  rcases Option.or_eq_some_iff.1 h with h | ⟨-, h⟩
  · have htext := List.find?_some h
    exact ⟨List.mem_reverse.1 (List.mem_of_find?_eq_some h), Option.isSome_of_any htext⟩
  · have hsome := List.find?_some h
    exact ⟨List.mem_reverse.1 (List.mem_of_find?_eq_some h), hsome⟩

theorem lookup_eq_winner (set : SourceSet) (key : String) :
    set.lookup key = (set.winner? key).bind (·.lookup key) := by
  unfold lookup answers winner? Registered.hasText
  dsimp only
  rw [List.find?_filterMap, List.head?_filterMap]
  cases hfind : set.entries.reverse.find? fun r =>
      (r.lookup key).any fun value => !value.isNull with
  | some r =>
    have htext := List.find?_some hfind
    rw [Option.some_or, Option.bind_some, Option.or_of_isSome (Option.isSome_of_any htext)]
  | none =>
    rw [Option.bind_none, Option.none_or, Option.none_or]
    induction set.entries.reverse with
    | nil => rfl
    | cons r rest ih =>
      cases hr : r.lookup key with
      | none => rw [List.findSome?_cons, hr, List.find?_cons, hr]; exact ih
      | some value => rw [List.findSome?_cons, hr, List.find?_cons, hr]; exact hr.symm

/-- A merge and a look-up agree where the winner is enumerated and the sources that are answer as
they are enumerated. -/
theorem get?_merge_eq_lookup
    (hc : ∀ r ∈ set.entries, r.source.isScannable → r.source.IsConsistent key)
    (hw : ∀ r, set.winner? key = some r → r.source.isScannable) :
    set.merge.get? key = set.lookup key := by
  have hmem : ∀ {r}, r ∈ set.entries.reverse → r.source.isScannable →
      r.source.IsConsistent key := fun hr => hc _ (List.mem_reverse.1 hr)
  rw [get?_merge, lookup_eq_winner]
  unfold winner? at hw ⊢
  cases hfind : set.entries.reverse.find? (·.hasText key) with
  | some r =>
    obtain ⟨htext, before, behind, hl, hbefore⟩ := List.find?_eq_some_iff_append.1 hfind
    have hs : r.source.isScannable := hw r (by rw [hfind]; rfl)
    have hr := List.mem_of_find?_eq_some hfind
    have hnone : before.findSome? (·.scanned? key) = none := by
      refine List.findSome?_eq_none_iff.2 fun a ha => ?_
      refine Registered.scanned?_eq_none (hmem (hl ▸ List.mem_append_left _ ha)) ?_
      simpa using hbefore a ha
    obtain ⟨value, hvalue⟩ := Option.isSome_iff_exists.1 (Option.isSome_of_any htext)
    rw [hl, List.findSome?_append, hnone, Option.none_or, List.findSome?_cons,
      Registered.scanned?_eq_lookup hs (hmem hr hs), Option.some_or, Option.bind_some, hvalue]
  | none =>
    have hall : ∀ r ∈ set.entries.reverse, r.scanned? key = none := fun r hr =>
      Registered.scanned?_eq_none (hmem hr) (by simpa using List.find?_eq_none.1 hfind r hr)
    rw [List.findSome?_eq_none_iff.2 hall, Option.none_or]
    cases hnull : set.entries.reverse.find? fun r => (r.lookup key).isSome with
    | none => rfl
    | some r =>
      have hr := List.mem_of_find?_eq_some hnull
      have hs : r.source.isScannable := hw r (by rw [hfind, hnull]; rfl)
      rw [Option.bind_some, ← Registered.scanned?_eq_lookup hs (hmem hr hs), hall r hr]

end SourceSet

end LayeredConfig
