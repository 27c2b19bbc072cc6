import LayeredConfig.SourceSet
import Mathlib.Data.List.Nodup

/-! # Replacing a source of a set

A set of sources is made in two ways: `ofSources` registers and sorts a list of sources, and
`replacing` edits one entry of a set that exists. Both ways lead to the same set when the same
sources are dropped because of their names (`replacing_ofSources_of_distinctNames`), since entries
with distinct names have one order only; so it is when every source that is replaced has the name of
the one in its place (`replacing_ofSources`). Of sources that come behind others, those whose names
are taken do not matter (`ofSources_append_congr`). -/

namespace LayeredConfig

/-- A source, or `new` in its place if it has the identity `old`. -/
def Source.renewed (s : Source) (old : Identity) (new : Source) : Source :=
  if s.id = old then new else s

theorem Source.name_renewed {s new : Source} {old : Identity}
    (h : s.id = old → s.name = new.name) : (s.renewed old new).name = s.name := by
  unfold Source.renewed
  split
  · rename_i hid
    exact (h hid).symm
  · rfl

/-! ### Distinct names -/

theorem mem_of_mem_distinctNames {s : Source} {sources : List Source}
    (h : s ∈ distinctNames sources) : s ∈ sources := by
  induction sources with
  | nil => exact h
  | cons t rest ih =>
    rw [distinctNames, List.mem_cons] at h
    rcases h with rfl | h
    · exact List.mem_cons_self
    · exact List.mem_cons_of_mem _ (ih ((List.mem_filter.1 h).1))

theorem pairwise_distinctNames (sources : List Source) :
    (distinctNames sources).Pairwise fun s t => s.name ≠ t.name := by
  induction sources with
  | nil => exact .nil
  | cons s rest ih =>
    rw [distinctNames, List.pairwise_cons]
    refine ⟨fun t ht => ?_, ih.filter _⟩
    have hne : t.name ≠ s.name := by simpa using (List.mem_filter.1 ht).2
    exact hne.symm

/-- Sources with distinct names are all kept. -/
theorem distinctNames_eq_self {sources : List Source} (h : (sources.map (·.name)).Nodup) :
    distinctNames sources = sources := by
  induction sources with
  | nil => rfl
  | cons s rest ih =>
    obtain ⟨hs, hrest⟩ := List.nodup_cons.1 h
    have hkeep : rest.filter (fun t => t.name ≠ s.name) = rest := by
      refine List.filter_eq_self.2 fun t ht => decide_eq_true fun heq => hs ?_
      exact List.mem_map.2 ⟨t, ht, heq⟩
    rw [distinctNames, ih hrest, hkeep]

theorem distinctNames_append (first second : List Source) :
    distinctNames (first ++ second) = distinctNames first ++
      (distinctNames second).filter fun t => first.all fun s => t.name ≠ s.name := by
  induction first with
  | nil => exact (List.filter_eq_self.2 fun _ _ => rfl).symm
  | cons s rest ih =>
    rw [List.cons_append, distinctNames, ih, List.filter_append, List.filter_filter, distinctNames,
      List.cons_append]
    simp only [List.all_cons]

theorem distinctNames_map {f : Source → Source} {sources : List Source}
    (hf : ∀ s ∈ sources, (f s).name = s.name) :
    distinctNames (sources.map f) = (distinctNames sources).map f := by
  induction sources with
  | nil => rfl
  | cons s rest ih =>
    have hs := hf s List.mem_cons_self
    have hrest : ∀ t ∈ rest, (f t).name = t.name := fun t ht => hf t (List.mem_cons_of_mem _ ht)
    rw [List.map_cons, distinctNames, distinctNames, List.map_cons, ih hrest, List.filter_map]
    congr 2
    refine List.filter_congr fun t ht => ?_
    simp only [Function.comp, hs, hrest t (mem_of_mem_distinctNames ht)]

/-! ### Entries with distinct names -/

namespace Registered

@[simp] theorem source_of (s : Source) : (Registered.of s).source = s := rfl

@[simp] theorem name_of (s : Source) : (Registered.of s).name = s.name := rfl

theorem of_renewed (s : Source) (old : Identity) (new : Source) :
    Registered.of (s.renewed old new) = if s.id = old then Registered.of new else Registered.of s :=
  apply_ite Registered.of _ _ _

/-- Sources of the same precedence have the same name. -/
theorem name_eq_of_notAbove {a b : Registered} (hab : notAbove a b = true)
    (hba : notAbove b a = true) : a.name = b.name := by
  simp only [notAbove, Bool.or_eq_true, Bool.and_eq_true, decide_eq_true_eq] at hab hba
  rcases hab with h | ⟨h, hn⟩
  · rcases hba with h' | ⟨h', -⟩ <;> omega
  · rcases hba with h' | ⟨-, hn'⟩
    · omega
    · exact String.le_antisymm hn hn'

/-- Entries with distinct names, given in any order, are sorted in one way. -/
theorem sort_eq_of_perm {xs ys : List Registered} (hp : xs.Perm ys)
    (hn : (xs.map (·.name)).Nodup) : Order.sort notAbove xs = Order.sort notAbove ys := by
  refine Order.sort_eq_of_perm notAbove_preorder hp fun a ha b hb hab hba => ?_
  exact List.inj_on_of_nodup_map hn ha hb (name_eq_of_notAbove hab hba)

end Registered

/-! ### Sets made in two ways -/

namespace SourceSet

theorem nodup_names_registered (sources : List Source) :
    (((distinctNames sources).map Registered.of).map (·.name)).Nodup := by
  rw [List.map_map]
  exact List.pairwise_map.2 (pairwise_distinctNames sources)

/-- Replacing a source in a set gives the set of the sources with the new one in its place, if the
new one does not change which sources are dropped. -/
theorem replacing_ofSources_of_distinctNames {sources : List Source} {old : Identity} {new : Source}
    (h : distinctNames (sources.map fun s => s.renewed old new) =
      (distinctNames sources).map fun s => s.renewed old new) (w v : Nat) :
    (ofSources sources w).replacing old new v =
      ofSources (sources.map fun s => s.renewed old new) v := by
  have hentry : ((distinctNames sources).map Registered.of).map
      (fun r => if r.source.id = old then Registered.of new else r) =
      ((distinctNames sources).map fun s => s.renewed old new).map Registered.of := by
    simp only [List.map_map]
    exact List.map_congr_left fun s _ => (Registered.of_renewed s old new).symm
  have hperm : ((ofSources sources w).entries.map
      fun r => if r.source.id = old then Registered.of new else r).Perm
      ((distinctNames (sources.map fun s => s.renewed old new)).map Registered.of) := by
    rw [h, ← hentry]
    exact (Order.sort_perm _).map _
  simp only [replacing, ofSources, SourceSet.mk.injEq, and_true] at hperm ⊢
  exact (Registered.sort_eq_of_perm hperm.symm (nodup_names_registered _)).symm

/-- A source may be replaced by one of its name, whichever sources have that name. -/
theorem replacing_ofSources {sources : List Source} {old : Identity} {new : Source}
    (h : ∀ s ∈ sources, s.id = old → s.name = new.name) (w v : Nat) :
    (ofSources sources w).replacing old new v =
      ofSources (sources.map fun s => s.renewed old new) v :=
  replacing_ofSources_of_distinctNames
    (distinctNames_map fun s hs => Source.name_renewed (h s hs)) w v

/-- Behind others, only the sources whose names are not taken matter. -/
theorem ofSources_append_congr {first second third : List Source} (v : Nat)
    (h : (distinctNames second).filter (fun t => first.all fun s => t.name ≠ s.name) =
      (distinctNames third).filter fun t => first.all fun s => t.name ≠ s.name) :
    ofSources (first ++ second) v = ofSources (first ++ third) v := by
  simp only [ofSources, distinctNames_append, h]

/-- Replacing a source that comes first does not depend on what has its name behind it. -/
theorem ofSources_renewed_append {first second : List Source} {old : Identity} {new : Source}
    (hfirst : ∃ s ∈ first, s.name = new.name)
    (hsecond : ∀ s ∈ second, s.id = old → s.name = new.name) (v : Nat) :
    ofSources (first ++ second.map fun s => s.renewed old new) v =
      ofSources (first ++ second) v := by
  refine ofSources_append_congr v ?_
  rw [distinctNames_map fun s hs => Source.name_renewed (hsecond s hs), List.filter_map]
  obtain ⟨taken, htaken, hname⟩ := hfirst
  have hkept : ∀ t ∈ (distinctNames second).filter (fun t => first.all fun s => t.name ≠ s.name),
      t.renewed old new = t := by
    intro t ht
    obtain ⟨hmem, hfree⟩ := List.mem_filter.1 ht
    have hne : t.name ≠ taken.name := by simpa using List.all_eq_true.1 hfree taken htaken
    unfold Source.renewed
    split
    · rename_i hid
      exact absurd ((hsecond t (mem_of_mem_distinctNames hmem) hid).trans hname.symm) hne
    · rfl
  have hfilter : (distinctNames second).filter
      ((fun t => first.all fun s => t.name ≠ s.name) ∘ fun s => s.renewed old new) =
      (distinctNames second).filter fun t => first.all fun s => t.name ≠ s.name := by
    refine List.filter_congr fun t ht => ?_
    simp only [Function.comp,
      Source.name_renewed (hsecond t (mem_of_mem_distinctNames ht))]
  rw [hfilter]
  exact (List.map_congr_left hkept).trans (List.map_id' _)

end SourceSet

end LayeredConfig
