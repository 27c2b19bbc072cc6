import LayeredConfig.Proofs.Store.Writing

/-! # Replacing is rebuilding

A set of sources in which one was replaced is the set of the list in which it was replaced
(`replacing_eq_rebuilt`), although the other sources keep the ordinals they were registered with and
no names are looked at. A new source may have the name of the old one, then the list drops the same
sources as before (`replacing_ofSources`), or a name of its own among sources that all have
different names, then it drops none (`replacing_ofSources_of_nodup`).

However a set was made, its entries come in ascending precedence (`IsMade.pairwise_notAbove`), so a
set that does not hold the old source stays as it is (`IsMade.replacing_eq_withVersion`). -/

namespace LayeredConfig

/-- Names that are all different stay so when one of them is replaced by another one. -/
theorem nodup_names_renewed {sources : List Source} {old new : Source}
    (hold : ∀ s ∈ sources, s.id = old.id → s.name = old.name)
    (hn : (sources.map (·.name)).Nodup) (hnew : new.name ∉ sources.map (·.name)) :
    ((sources.map fun s => s.renewed old.id new).map (·.name)).Nodup := by
  have hfree : ∀ s ∈ sources, s.name ≠ new.name := fun s hs h => hnew (List.mem_map.2 ⟨s, hs, h⟩)
  rw [List.map_map]
  refine List.pairwise_map.2 ((List.pairwise_map.1 hn).imp_of_mem fun {s t} hs ht hne => ?_)
  simp only [Function.comp, Source.renewed]
  split <;> split
  · rename_i hs' ht'
    exact absurd ((hold s hs hs').trans (hold t ht ht').symm) hne
  · exact (hfree t ht).symm
  · exact hfree s hs
  · exact hne

namespace SourceSet

variable {sources : List Source} {set : SourceSet} {old new : Source}

/-- Among sources with different names, one may be replaced by a source of another name. -/
theorem replacing_ofSources_of_nodup (hold : ∀ s ∈ sources, s.id = old.id → s.name = old.name)
    (hn : (sources.map (·.name)).Nodup) (hnew : new.name ∉ sources.map (·.name)) (w v : Nat) :
    (ofSources sources w).replacing old.id new v =
      ofSources (sources.map fun s => s.renewed old.id new) v := by
  refine replacing_ofSources_of_distinctNames ?_ w v
  rw [distinctNames_eq_self hn, distinctNames_eq_self (nodup_names_renewed hold hn hnew)]

/-! ### Sets that were made -/

/-- Whether a set comes from a list of sources, by replacing sources, by publishing under other
versions and by editing sources in place. -/
inductive IsMade : SourceSet → Prop
  | ofSources (sources : List Source) (version : Nat) : IsMade (.ofSources sources version)
  | replacing {set : SourceSet} (h : set.IsMade) (old : Identity) (new : Source) (version : Nat) :
    IsMade (set.replacing old new version)
  | withVersion {set : SourceSet} (h : set.IsMade) (version : Nat) : IsMade (set.withVersion version)
  | edited {set : SourceSet} (h : set.IsMade) {source : Source} (hname : set.KeepsName source) :
    IsMade (set.edited source)

/-- An edit in place moves no entry. -/
theorem KeepsName.pairwise_notAbove (hname : set.KeepsName new)
    (h : set.entries.Pairwise fun a b => Registered.notAbove a b = true) :
    (set.edited new).entries.Pairwise fun a b => Registered.notAbove a b = true := by
  have hkept : ∀ r ∈ set.entries,
      let edited := if r.source.id = new.id then { r with source := new } else r
      edited.ordinal = r.ordinal ∧ edited.name = r.name := by
    intro r hr
    dsimp only
    split
    · rename_i hid
      exact ⟨rfl, (hname r hr hid).symm⟩
    · exact ⟨rfl, rfl⟩
  refine List.pairwise_map.2 (h.imp_of_mem fun {a b} ha hb hab => ?_)
  unfold Registered.notAbove at hab ⊢
  rw [(hkept a ha).1, (hkept a ha).2, (hkept b hb).1, (hkept b hb).2]
  exact hab

theorem IsMade.pairwise_notAbove (h : set.IsMade) :
    set.entries.Pairwise fun a b => Registered.notAbove a b = true := by
  induction h with
  | ofSources sources version => exact pairwise_entries_ofSources sources version
  | replacing _ old new version => exact Order.pairwise_sort Registered.notAbove_preorder _
  | withVersion _ version ih => exact ih
  | edited _ hname ih => exact hname.pairwise_notAbove ih

/-- Where the old source is not, nothing is replaced and nothing moves. -/
theorem IsMade.replacing_eq_withVersion (h : set.IsMade) {old : Identity}
    (hnot : ∀ r ∈ set.entries, r.source.id ≠ old) (new : Source) (version : Nat) :
    set.replacing old new version = set.withVersion version := by
  have hsame : (set.entries.map fun r => if r.source.id = old then .of new else r) = set.entries :=
    (List.map_congr_left fun r hr => if_neg (hnot r hr)).trans (List.map_id' _)
  unfold SourceSet.replacing SourceSet.withVersion
  rw [hsame, Order.sort_eq_self h.pairwise_notAbove]

/-- **Replacing is rebuilding.** Let a source be replaced in the set of a list of sources by one of
its name, whichever names the list has twice, or let all names of the list be different and the new
one none of them. The result is the set of the list with the new source in the place of the old one,
with the same entries in the same order and so with the same merge and look-ups. It is strictly
ascending by ordinal and name, and no two of its sources have the same name. A set that does not
hold the old source stays as it is but for the version. -/
theorem replacing_eq_rebuilt (hold : ∀ s ∈ sources, s.id = old.id → s.name = old.name)
    (hnew : new.name = old.name ∨
      (sources.map (·.name)).Nodup ∧ new.name ∉ sources.map (·.name)) (w v : Nat) :
    let replaced := (ofSources sources w).replacing old.id new v
    replaced = ofSources (sources.map fun s => s.renewed old.id new) v ∧
    replaced.entries.Pairwise Registered.IsBelow ∧ (replaced.entries.map (·.name)).Nodup ∧
    ∀ set : SourceSet, set.IsMade → (∀ r ∈ set.entries, r.source.id ≠ old.id) →
      set.replacing old.id new v = set.withVersion v := by
  intro replaced
  have hrebuilt : replaced = ofSources (sources.map fun s => s.renewed old.id new) v := by
    rcases hnew with hname | ⟨hn, hfree⟩
    · exact replacing_ofSources (fun s hs hid => (hold s hs hid).trans hname.symm) w v
    · exact replacing_ofSources_of_nodup hold hn hfree w v
  refine ⟨hrebuilt, ?_, ?_, fun set hmade hnot => hmade.replacing_eq_withVersion hnot new v⟩
  · rw [hrebuilt]
    exact pairwise_isBelow_ofSources _ v
  · rw [hrebuilt]
    exact nodup_names_ofSources _ v

/-- Two tables of one name, and one that lies above them. -/
def crowded : List Source :=
  [(Table.ofPairs "app" [("k", "low")]).toSource (.object 0),
    ((Table.ofPairs "app" [("k", "late")]).withOrdinal 700).toSource (.object 1),
    ((Table.ofPairs "site" [("k", "mid")]).withOrdinal 300).toSource (.object 2)]

/-- A table that states a high ordinal for itself. -/
def risen (name : String) : Source :=
  (Table.ofPairs name [("k", "high"), (ordinalKey, "900")]).toSource (.copy 2)

/-- The new source rises above the others: in place of the first table of its name, while the second
one stays out, and under a name of its own. The set of the new sources does not hold the old one. -/
theorem replacing_eq_rebuilt_risen :
    ((ofSources crowded 1).replacing (.object 0) (risen "app") 2).summary =
        [("site", 300), ("app", 900)] ∧
      (ofSources crowded 1).replacing (.object 0) (risen "app") 2 =
        ofSources (crowded.map fun s => s.renewed (.object 0) (risen "app")) 2 ∧
      (ofSources (crowded.drop 1) 1).replacing (.object 1) (risen "new") 2 =
        ofSources ((crowded.drop 1).map fun s => s.renewed (.object 1) (risen "new")) 2 ∧
      (ofSources [risen "app"] 1).replacing (.object 0) (risen "app") 2 =
        (ofSources [risen "app"] 1).withVersion 2 := by
  have hold : ∀ s ∈ crowded, s.id = (.object 0 : Identity) → s.name = "app" := by decide
  have hold' : ∀ s ∈ crowded.drop 1, s.id = (.object 1 : Identity) → s.name = "app" := by decide
  have hsame := @replacing_eq_rebuilt crowded crowded[0] (risen "app") hold (.inl rfl) 1 2
  refine ⟨by decide +kernel, hsame.1, ?_, ?_⟩
  · exact (@replacing_eq_rebuilt (crowded.drop 1) crowded[1] (risen "new") hold'
      (.inr (by decide)) 1 2).1
  · exact hsame.2.2.2 _ (.ofSources _ 1) (by decide)

end SourceSet

end LayeredConfig
