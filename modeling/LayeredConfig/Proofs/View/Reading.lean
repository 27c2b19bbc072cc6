import LayeredConfig.View

/-! # What a view reads

Two views read alike if they look keys up alike and resolve with the same resolvers
(`getValue_congr`, `get_congr`), and for snapshots if the same values are visible to them
(`build_congr`). What a single look-up and a snapshot give for a key is its filtered value with the
placeholders resolved (`get_run`, `get?_build`). Resolvers are functions there, and the two ways
resolve alike; what tells them apart is how a value is found and filtered. -/

namespace LayeredConfig

/-- Filtering a merge is filtering each of its values under its key. -/
theorem Pipeline.get?_applyBulk (p : Pipeline) {merged : KeyMap PropertyValue}
    (hkey : ∀ key value, merged.get? key = some value → value.key = key) (key : String) :
    (p.applyBulk merged).get? key =
      (merged.get? key).bind fun value => p.apply (.bulk value merged) value := by
  have hdistinct : (merged.values.filterMap fun v =>
      (p.apply (.bulk v merged) v).map fun w => (w.key, w)).Pairwise fun a b => a.1 ≠ b.1 := by
    refine List.pairwise_filterMap.2 (List.pairwise_map.2 ?_)
    refine merged.pairwise_entries_ne.imp_of_mem fun {a b} ha hb hne x hx y hy => ?_
    obtain ⟨v, hv, rfl⟩ := Option.map_eq_some_iff.1 hx
    obtain ⟨w, hw, rfl⟩ := Option.map_eq_some_iff.1 hy
    show v.key ≠ w.key
    rw [key_of_apply hv, key_of_apply hw, hkey _ _ (KeyMap.mem_entries_iff.1 ha),
      hkey _ _ (KeyMap.mem_entries_iff.1 hb)]
    exact hne
  refine Option.ext fun w => (KeyMap.get?_ofList_eq_some hdistinct).trans ?_
  rw [List.mem_filterMap, Option.bind_eq_some_iff]
  constructor
  · rintro ⟨v, hv, heq⟩
    obtain ⟨k, hk⟩ := KeyMap.mem_values_iff.1 hv
    obtain ⟨w', hw, hpair⟩ := Option.map_eq_some_iff.1 heq
    obtain ⟨rfl, rfl⟩ := Prod.mk.inj hpair
    rw [key_of_apply hw, hkey k v hk]
    exact ⟨v, hk, hw⟩
  · rintro ⟨v, hv, hw⟩
    refine ⟨v, KeyMap.mem_values_iff.2 ⟨key, hv⟩, ?_⟩
    rw [hw, ← hkey key v hv, ← key_of_apply hw]
    rfl

namespace View

/-! ### Views that read alike -/

section Alike

variable {m : Type → Type} [Monad m] {v w : View m} {a b : SourceSet}

omit [Monad m] in
theorem scope_congr (h : v.lookup a = w.lookup b) : v.scope a = w.scope b := by
  unfold scope
  rw [h]

variable (hlookup : v.lookup a = w.lookup b) (hevaluator : v.evaluator = w.evaluator)
  (hmask : v.mask = w.mask)
include hlookup hevaluator hmask

/-- Placeholders are resolved alike by views that look keys up alike. -/
theorem resolve_congr : v.resolve a = w.resolve b := by
  unfold resolve
  rw [scope_congr hlookup, hevaluator, hmask]

theorem getValue_congr : v.getValue a = w.getValue b := by
  unfold getValue
  rw [resolve_congr hlookup hevaluator hmask, hlookup]

theorem get_congr : v.get a = w.get b := by
  unfold get
  rw [getValue_congr hlookup hevaluator hmask]

/-- A snapshot also depends on the values of a merge that stay, and on the version. -/
theorem build_congr (hvisible : v.visible a = w.visible b) (hversion : a.version = b.version) :
    v.build a = w.build b := by
  unfold build
  rw [hvisible, resolve_congr hlookup hevaluator hmask, hversion]

end Alike

/-! ### Values -/

/-- A key is read as its filtered value, which is resolved. -/
theorem get_run (v : View Id) (set : SourceSet) (key : String) :
    (v.get set key).run =
      ((v.lookup set key).bind (·.value)).map fun raw => (v.resolve set key raw).run := by
  unfold View.get getValue
  cases v.lookup set key with
  | none => rfl
  | some value =>
    cases hvalue : value.value with
    | none =>
      simp only [hvalue, Option.bind_some, Option.map_none]
      exact hvalue
    | some raw =>
      simp only [hvalue, Option.bind_some, Option.map_some]
      rfl

theorem values_build (v : View Id) (set : SourceSet) :
    (v.build set).run.values = .ofList ((v.visible set).map fun p =>
      (p.1, (v.resolve set p.1 (p.2.value.getD "")).run)) := by
  have hrun : (v.build set).run.values = .ofList ((v.visible set).mapM fun p => do
      return (p.1, ← v.resolve set p.1 (p.2.value.getD "")) : Id _).run := rfl
  rw [hrun, List.idRun_mapM]
  rfl

theorem pairwise_visible (v : View Id) (set : SourceSet) :
    (v.visible set).Pairwise fun a b => a.1 ≠ b.1 :=
  (KeyMap.pairwise_entries_ne _).filter _

theorem mem_visible {m : Type → Type} {v : View m} {set : SourceSet} {key : String} {value : PropertyValue} :
    (key, value) ∈ v.visible set ↔
      (v.pipeline.applyBulk set.merge).get? key = some value ∧ value.isNull = false := by
  unfold visible
  rw [List.mem_filter, KeyMap.mem_entries_iff]
  simp

/-- A snapshot has a key as its filtered value in the merge, which is resolved. -/
theorem get?_build (v : View Id) (set : SourceSet) (key : String) :
    (v.build set).run.get? key =
      (((v.pipeline.applyBulk set.merge).get? key).bind (·.value)).map fun raw =>
        (v.resolve set key raw).run := by
  have hdistinct : ((v.visible set).map fun p =>
      (p.1, (v.resolve set p.1 (p.2.value.getD "")).run)).Pairwise fun a b => a.1 ≠ b.1 :=
    List.pairwise_map.2 (pairwise_visible v set)
  unfold Snapshot.get?
  rw [values_build]
  refine Option.ext fun text => ?_
  rw [KeyMap.get?_ofList_eq_some hdistinct, List.mem_map, Option.map_eq_some_iff]
  constructor
  · rintro ⟨⟨k, value⟩, hmem, hpair⟩
    obtain ⟨rfl, rfl⟩ := Prod.mk.inj hpair
    obtain ⟨hget, hnull⟩ := mem_visible.1 hmem
    obtain ⟨raw, hraw⟩ := Option.isSome_iff_exists.1 (Option.isNone_eq_false_iff.1 hnull)
    refine ⟨raw, by rw [hget, Option.bind_some, hraw], by rw [hraw]; rfl⟩
  · rintro ⟨raw, hraw, rfl⟩
    obtain ⟨value, hget, hvalue⟩ := Option.bind_eq_some_iff.1 hraw
    refine ⟨(key, value), mem_visible.2 ⟨hget, ?_⟩, by rw [hvalue]; rfl⟩
    unfold PropertyValue.isNull
    rw [hvalue]
    rfl

end View

end LayeredConfig
