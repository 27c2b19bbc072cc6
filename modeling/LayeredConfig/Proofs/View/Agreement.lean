import LayeredConfig.Filter.Kinds
import LayeredConfig.Proofs.SourceSet.Precedence
import LayeredConfig.Proofs.SourceSet.Replacement
import LayeredConfig.Proofs.Store.Edits
import LayeredConfig.Proofs.View.Reading
import LayeredConfig.Source.Lookup

/-! # Snapshots and single look-ups agree

A snapshot finds values by a merge and filters them in bulk, a single look-up asks the sources in
turn and filters one value. For a key that is not reserved they come to the same, if the filters do
not tell the two ways apart, the sources that are enumerated answer as they are enumerated, and the
look-up is won by one of them (`get?_build_eq_get`). A context reads its snapshot from the published
set or from what is kept of it, so it agrees with its own look-ups at every version
(`get?_snapshot_eq_get`), as long as no source is edited in place behind the back of a snapshot that
is kept (`get?_snapshot_ne_get`). -/

namespace LayeredConfig

/-- A table that is enumerated is consistent. -/
theorem Table.isConsistent_toSource {t : Table} (h : t.isScannable) (id : Identity)
    (key : String) : (t.toSource id).IsConsistent key := by
  show t.get key = (t.properties.get? key).map fun text => .of key text t.name
  unfold get properties
  rw [if_pos h]

/-! ### Filters -/

namespace Filter

/-- Whether a filter does the same to a value that is read by its key and in a merge. -/
def IsModeFree (f : Filter) : Prop :=
  ∀ value key entering merged,
    f.step ⟨key, entering, none, true⟩ value = f.step ⟨key, entering, some merged, false⟩ value

theorem step_hideReserved {ctx : FilterContext} (h : isReserved ctx.key = false)
    (value : PropertyValue) : hideReserved.step ctx value = some value := by
  have hrun : hideReserved.run value ctx = .ok (some value) := by
    show Except.ok (if !ctx.isSingle && isReserved ctx.key then none else some value) = _
    rw [h, Bool.and_false]
    rfl
  unfold step
  rw [hrun]
  exact congrArg some (if_pos rfl)

/-- Masking looks at keys and values only. -/
theorem isModeFree_masking (m : Masking) : m.toFilter.IsModeFree := fun _ _ _ _ => rfl

end Filter

theorem Pipeline.applySingle_eq {p : Pipeline}
    (hf : ∀ f ∈ p.filters, f = .hideReserved ∨ f.IsModeFree) {value : PropertyValue}
    (hkey : isReserved value.key = false) (merged : KeyMap PropertyValue) :
    p.applySingle value = p.apply (.bulk value merged) value := by
  obtain ⟨filters⟩ := p
  have hstep : ∀ f ∈ filters, ∀ u, f.step (.single value) u = f.step (.bulk value merged) u := by
    intro f hmem u
    rcases hf f hmem with rfl | hfree
    · have hsingle := @Filter.step_hideReserved (.single value) hkey u
      have hbulk := @Filter.step_hideReserved (.bulk value merged) hkey u
      rw [hsingle, hbulk]
    · exact hfree u value.key value merged
  have hrun : ∀ u, filters.foldlM (fun u f => f.step (.single value) u) u =
      filters.foldlM (fun u f => f.step (.bulk value merged) u) u := by
    clear hf
    induction filters with
    | nil => exact fun _ => rfl
    | cons f rest ih =>
      intro u
      rw [List.foldlM_cons, List.foldlM_cons, hstep f List.mem_cons_self]
      exact bind_congr fun w => ih (fun g hg => hstep g (List.mem_cons_of_mem _ hg)) w
  unfold applySingle
  rw [apply_eq_foldlM, apply_eq_foldlM]
  exact hrun value

/-! ### Views -/

namespace View

variable {v : View Id} {set : SourceSet} {key : String}

/-- A snapshot and a look-up have the same filtered value. -/
theorem get?_applyBulk_eq_lookup (hkey : isReserved key = false)
    (hfilters : ∀ f ∈ v.pipeline.filters, f = .hideReserved ∨ f.IsModeFree)
    (hsources : ∀ r ∈ set.entries, r.source.isScannable → r.source.IsConsistent key)
    (hwinner : ∀ r, set.winner? key = some r → r.source.isScannable) :
    (v.pipeline.applyBulk set.merge).get? key = v.lookup set key := by
  unfold View.lookup
  rw [Pipeline.get?_applyBulk _ fun _ _ => SourceSet.key_of_get?_merge,
    ← SourceSet.get?_merge_eq_lookup hsources hwinner]
  refine Option.bind_congr fun value hvalue => ?_
  have hvalue_key : isReserved value.key = false := by
    rw [SourceSet.key_of_get?_merge hvalue, hkey]
  exact (Pipeline.applySingle_eq hfilters hvalue_key _).symm

theorem get?_build_eq_get (hkey : isReserved key = false)
    (hfilters : ∀ f ∈ v.pipeline.filters, f = .hideReserved ∨ f.IsModeFree)
    (hsources : ∀ r ∈ set.entries, r.source.isScannable → r.source.IsConsistent key)
    (hwinner : ∀ r, set.winner? key = some r → r.source.isScannable) :
    (v.build set).run.get? key = (v.get set key).run := by
  rw [get?_build, get_run, get?_applyBulk_eq_lookup hkey hfilters hsources hwinner]

/-- A key has no text if no source has it, a filter vetoes it, or its value is null. -/
theorem get_eq_none_iff (v : View Id) (set : SourceSet) (key : String) :
    (v.get set key).run = none ↔ set.lookup key = none ∨
      (∃ value, set.lookup key = some value ∧ v.pipeline.applySingle value = none) ∨
      ∃ value, v.lookup set key = some value ∧ value.isNull := by
  rw [get_run, Option.map_eq_none_iff]
  unfold View.lookup
  cases set.lookup key with
  | none => exact ⟨fun _ => .inl rfl, fun _ => rfl⟩
  | some found =>
    rw [Option.bind_some]
    cases hfiltered : v.pipeline.applySingle found with
    | none => exact ⟨fun _ => .inr (.inl ⟨found, rfl, hfiltered⟩), fun _ => rfl⟩
    | some value =>
      rw [Option.bind_some]
      constructor
      · intro h
        exact .inr (.inr ⟨value, rfl, by rw [PropertyValue.isNull, h]; rfl⟩)
      · rintro (h | ⟨other, hother, hveto⟩ | ⟨other, hother, hnull⟩)
        · cases h
        · cases hother
          cases hfiltered.symm.trans hveto
        · cases hother
          exact Option.isNone_iff_eq_none.1 hnull

end View

/-! ### Contexts -/

namespace Course

/-- **Snapshots and single look-ups agree.** Whatever has been done to a context and to its sources,
its snapshot has a key as a look-up gives it at the same version, and the key is absent if no source
has it, a filter vetoes it, or its value is null. The key is not reserved, the filters but for the
one that hides reserved keys do not tell the two ways apart, the sources that are enumerated answer
as they are enumerated, and the look-up is not won by one that is not. No source has been edited in
place since the snapshot of the version was built: what was kept by the time of the last edit, and
by the end of the last reading that was under way at one, is of another version. -/
theorem get?_snapshot_eq_get (v : View Id) (fixed : List Source) (writable : Option Writable)
    (first : Loaded) (acts : List Act) (since : List Access) {c d : Course} {key : String}
    (edited : d = (start (.initial fixed writable first)).afterActs v acts)
    (reached : c = d.after v since)
    (hkept : ∀ kept, d.store.cached = some kept → kept.version ≠ c.store.version)
    (hkey : isReserved key = false)
    (hfilters : ∀ f ∈ v.pipeline.filters, f = .hideReserved ∨ f.IsModeFree)
    (hsources : ∀ r ∈ c.store.published.entries, r.source.isScannable → r.source.IsConsistent key)
    (hwinner : ∀ r, c.store.published.winner? key = some r → r.source.isScannable) :
    (c.store.snapshot v).version = c.store.version ∧
    (c.store.snapshot v).get? key = (v.get c.store.published key).run ∧
    ((c.store.snapshot v).get? key = none ↔ c.store.published.lookup key = none ∨
      (∃ value, c.store.published.lookup key = some value ∧
        v.pipeline.applySingle value = none) ∨
      ∃ value, v.lookup c.store.published key = some value ∧ value.isNull) := by
  have hordered : d.Ordered := by
    rw [edited]
    exact (Ordered.start _).afterActs v acts
  have hagree : (c.store.snapshot v).get? key = (v.get c.store.published key).run := by
    rw [reached] at hkept ⊢
    rw [hordered.snapshot_after_eq_build hkept]
    rw [reached] at hsources hwinner
    exact View.get?_build_eq_get hkey hfilters hsources hwinner
  exact ⟨Store.version_snapshot v _, hagree, hagree ▸ View.get_eq_none_iff v _ key⟩

/-- A table whose text refers to another key, a source of secrets that tells nulls, and a view that
masks nothing and hides reserved keys. -/
def web (port : String) : Writable :=
  ⟨.object 0, .ofPairs "web" [("port", port), ("url", "$\x7bconf:port\x7d")]⟩

def vault : Source :=
  .lookup (.object 1) "vault" (some 900) fun key => if key = "token" then some none else none

def secretive : View Id :=
  ⟨.ofFilters [.hideReserved, Masking.toFilter ⟨[], defaultMask, -100⟩], .ofResolvers [.conf], true⟩

theorem isModeFree_secretive :
    ∀ f ∈ secretive.pipeline.filters, f = .hideReserved ∨ f.IsModeFree := by
  intro f hf
  have hmem := Order.mem_sort.1 hf
  rcases List.mem_cons.1 hmem with rfl | hmem
  · exact .inl rfl
  · cases List.mem_singleton.1 hmem
    exact .inr (Filter.isModeFree_masking _)

/-- The sources after the port was changed. -/
def rewired : SourceSet :=
  (SourceSet.ofSources [(web "80").toSource, vault] 1).edited (web "81").toSource

theorem source_of_mem_rewired {r : Registered} (h : r ∈ rewired.entries) :
    r.source = (web "81").toSource ∨ r.source = vault := by
  obtain ⟨old, hold, rfl⟩ := List.mem_map.1 h
  obtain ⟨s, hs, rfl⟩ := List.mem_map.1 (Order.mem_sort.1 hold)
  rcases List.mem_cons.1 (mem_of_mem_distinctNames hs) with rfl | hs
  · exact .inl rfl
  · cases List.mem_singleton.1 hs
    exact .inr rfl

theorem isConsistent_of_mem_rewired (key : String) :
    ∀ r ∈ rewired.entries, r.source.isScannable → r.source.IsConsistent key := by
  intro r hr hscan
  rcases source_of_mem_rewired hr with h | h
  · rw [h]
    exact Table.isConsistent_toSource rfl _ _
  · rw [h] at hscan
    cases hscan

theorem isScannable_of_winner_rewired {key : String} (hkey : key ≠ "token") :
    ∀ r, rewired.winner? key = some r → r.source.isScannable := by
  intro r hr
  obtain ⟨hmem, hsome⟩ := SourceSet.mem_of_winner? hr
  rcases source_of_mem_rewired hmem with h | h
  · rw [h]
    rfl
  · have hnone : vault.get key = .ok none := by
      unfold vault Source.lookup
      simp only [if_neg hkey]
      rfl
    unfold Registered.lookup at hsome
    rw [h, hnone] at hsome
    cases hsome

/-- The port is changed in place, and the sources are published again. -/
theorem get?_snapshot_eq_get_of_refresh :
    ∃ c, c = ((start (.initial [(web "80").toSource, vault] none ⟨[], 0⟩)).afterActs secretive
        [.access (.keep 0), .edit (web "81")]).after secretive [.refresh] ∧
      (c.store.snapshot secretive).get? "url" = (secretive.get c.store.published "url").run ∧
      (secretive.get c.store.published "url").run = some "81" := by
  refine ⟨_, rfl, (get?_snapshot_eq_get secretive [(web "80").toSource, vault] none ⟨[], 0⟩
    [.access (.keep 0), .edit (web "81")] [.refresh] rfl rfl ?_ (by decide) isModeFree_secretive
    (isConsistent_of_mem_rewired "url") (isScannable_of_winner_rewired (by decide))).2.1,
    by decide +kernel⟩
  intro kept hk
  cases hk
  decide

/-- Without that the kept snapshot goes on to show the old port, under the same version. -/
theorem get?_snapshot_ne_get :
    ∃ c, c = (start (.initial [(web "80").toSource, vault] none ⟨[], 0⟩)).afterActs secretive
        [.access (.keep 0), .edit (web "81")] ∧
      isReserved "port" = false ∧
      (∀ f ∈ secretive.pipeline.filters, f = .hideReserved ∨ f.IsModeFree) ∧
      (∀ r ∈ c.store.published.entries, r.source.isScannable → r.source.IsConsistent "port") ∧
      (∀ r, c.store.published.winner? "port" = some r → r.source.isScannable) ∧
      (c.store.snapshot secretive).version = c.store.version ∧
      (c.store.snapshot secretive).get? "port" = some "80" ∧
      (secretive.get c.store.published "port").run = some "81" :=
  ⟨_, rfl, by decide, isModeFree_secretive, isConsistent_of_mem_rewired "port",
    isScannable_of_winner_rewired (by decide), by decide +kernel, by decide +kernel,
    by decide +kernel⟩

end Course

end LayeredConfig
