import LayeredConfig.Filter.Kinds
import LayeredConfig.Proofs.Secrecy.Alike
import LayeredConfig.Proofs.View.Reading

/-! # Keys that are concealed

The filters that come with the library look at the key of a value, at whether it is read by itself
and at whether it is null; they drop it, mask it or let it through. So a pipeline of them does the
same with values that are alike but for the texts of one key, and behind a filter that masks or
always drops this key nothing is left of the difference (`Conceals.apply_eq`). Whatever is read
through such a pipeline is the same for sets of sources that are alike: single keys, what
placeholders see, and snapshots (`View.getValue_eq`, `View.build_eq`). -/

namespace LayeredConfig

open List (Forall₂)

variable {k : String}

namespace Filter

/-- The filters that hide reserved keys, select keys by pattern, or mask. -/
inductive IsBuiltin : Filter → Prop
  | reserved : IsBuiltin hideReserved
  | selection (s : KeySelection) : IsBuiltin s.toFilter
  | masking (m : Masking) : IsBuiltin m.toFilter

/-- Whether a filter masks a key, or drops it from single look-ups and snapshots alike. -/
inductive Hides (k : String) : Filter → Prop
  | masked (m : Masking) (h : m.isSensitive k = true) : Hides k m.toFilter
  | dropped (s : KeySelection) (hscope : s.scope = .always) (h : s.keeps k = false) :
    Hides k s.toFilter

variable {f : Filter} {ctx ctx' : FilterContext} {v w : PropertyValue}

/-- Of what it knows about a value such a filter looks at the key and the kind of access. -/
theorem IsBuiltin.step_congr (h : f.IsBuiltin) (hkey : ctx.key = ctx'.key)
    (hmode : ctx.isSingle = ctx'.isSingle) (v : PropertyValue) : f.step ctx v = f.step ctx' v := by
  obtain ⟨key, entering, merged, isSingle⟩ := ctx
  obtain ⟨key', entering', merged', isSingle'⟩ := ctx'
  cases hkey
  cases hmode
  cases h <;> rfl

theorem step_hideReserved_eq (ctx : FilterContext) (v : PropertyValue) :
    hideReserved.step ctx v = if !ctx.isSingle && isReserved ctx.key then none else some v := by
  unfold step handedOn hideReserved
  split <;> split <;> simp_all

theorem step_toFilter_selection (s : KeySelection) (ctx : FilterContext) (v : PropertyValue) :
    s.toFilter.step ctx v = if !s.scope.applies ctx || s.keeps ctx.key then some v else none := by
  unfold step handedOn KeySelection.toFilter
  split <;> split <;> simp_all

theorem step_toFilter_masking (m : Masking) (ctx : FilterContext) (v : PropertyValue) :
    m.toFilter.step ctx v =
      some (if v.isNull || !m.isSensitive ctx.key then v else v.withValue m.mask) := by
  have hkey : (if v.isNull || !m.isSensitive ctx.key then v else v.withValue m.mask).key =
      v.key := by
    split <;> rfl
  show some (if _ then _ else _) = _
  rw [if_pos hkey]

theorem IsBuiltin.step_alikeBut (h : f.IsBuiltin) (ctx : FilterContext) (hvw : v.AlikeBut k w) :
    Option.Rel (PropertyValue.AlikeBut k) (f.step ctx v) (f.step ctx w) := by
  cases h with
  | reserved =>
    rw [step_hideReserved_eq, step_hideReserved_eq]
    split
    · exact .none
    · exact .some hvw
  | selection s =>
    rw [step_toFilter_selection, step_toFilter_selection]
    split
    · exact .some hvw
    · exact .none
  | masking m =>
    rw [step_toFilter_masking, step_toFilter_masking, hvw.isNull]
    split
    · exact .some hvw
    · rw [hvw.withValue]
      exact .some (.refl _)

/-- Nothing is left of a difference behind a filter that hides it. -/
theorem Hides.step_eq (h : f.Hides k) (hkey : ctx.key = k) (hvw : v.AlikeBut k w) :
    f.step ctx v = f.step ctx w := by
  cases h with
  | masked m hm =>
    rw [step_toFilter_masking, step_toFilter_masking, hkey, hm, hvw.isNull, Bool.not_true,
      Bool.or_false]
    split
    · rename_i hnull
      rw [hvw.eq_of_isNull (hvw.isNull.trans hnull)]
    · rw [hvw.withValue]
  | dropped s hscope hs =>
    rw [step_toFilter_selection, step_toFilter_selection, hkey, hs]
    simp [FilterScope.applies, hscope]

end Filter

/-! ### Pipelines -/

/-- Whether a pipeline is made of such filters and hides a key. -/
structure Pipeline.Conceals (k : String) (p : Pipeline) : Prop where
  builtin : ∀ f ∈ p.filters, f.IsBuiltin
  hides : ∃ f ∈ p.filters, f.Hides k

/-- The order of filters does not matter. -/
theorem Pipeline.conceals_ofFilters {fs : List Filter} (hbuiltin : ∀ f ∈ fs, f.IsBuiltin)
    (hhides : ∃ f ∈ fs, f.Hides k) : (Pipeline.ofFilters fs).Conceals k where
  builtin f hf := hbuiltin f (Order.mem_sort.1 hf)
  hides := by
    obtain ⟨f, hf, h⟩ := hhides
    exact ⟨f, Order.mem_sort.2 hf, h⟩

namespace Pipeline.Conceals

variable {p : Pipeline} {v w : PropertyValue}

/-- Filters run on values that are alike until one of them hides the difference, and then on one
value. -/
theorem foldlM_step_eq {fs : List Filter} {ctx ctx' : FilterContext}
    (hbuiltin : ∀ f ∈ fs, f.IsBuiltin) (hkey : ctx.key = ctx'.key)
    (hmode : ctx.isSingle = ctx'.isSingle)
    (h : v = w ∨ (ctx.key = k ∧ (∃ f ∈ fs, f.Hides k) ∧ v.AlikeBut k w)) :
    fs.foldlM (fun v f => f.step ctx v) v = fs.foldlM (fun v f => f.step ctx' v) w := by
  induction fs generalizing v w with
  | nil =>
    rcases h with rfl | ⟨-, ⟨f, hf, -⟩, -⟩
    · rfl
    · exact absurd hf List.not_mem_nil
  | cons f rest ih =>
    have hf := hbuiltin f List.mem_cons_self
    have hrest := fun g hg => hbuiltin g (List.mem_cons_of_mem f hg)
    -- from one value on
    have hequal (a : Option PropertyValue) :
        (a.bind fun v => rest.foldlM (fun v f => f.step ctx v) v) =
          a.bind fun v => rest.foldlM (fun v f => f.step ctx' v) v := by
      cases a with
      | none => rfl
      | some u => exact ih hrest (.inl rfl)
    rw [List.foldlM_cons, List.foldlM_cons, ← hf.step_congr hkey hmode w]
    rcases h with rfl | ⟨hk, ⟨g, hg, hgk⟩, hvw⟩
    · exact hequal _
    · by_cases hfk : f.Hides k
      · rw [hfk.step_eq hk hvw]
        exact hequal _
      · have hlater : ∃ g ∈ rest, g.Hides k := by
          rcases List.mem_cons.1 hg with rfl | hg
          · exact absurd hgk hfk
          · exact ⟨g, hg, hgk⟩
        have hstep := hf.step_alikeBut ctx hvw
        generalize f.step ctx v = a, f.step ctx w = b at hstep ⊢
        cases hstep with
        | none => rfl
        | some hab => exact ih hrest (.inr ⟨hk, hlater, hab⟩)

theorem apply_eq (h : p.Conceals k) (hvw : v.AlikeBut k w) {ctx ctx' : FilterContext}
    (hkey : ctx.key = v.key) (hkey' : ctx'.key = w.key) (hmode : ctx.isSingle = ctx'.isSingle) :
    p.apply ctx v = p.apply ctx' w := by
  have hsame : ctx.key = ctx'.key := by rw [hkey, hkey', hvw.key]
  have hcases : v = w ∨ (ctx.key = k ∧ (∃ f ∈ p.filters, f.Hides k) ∧ v.AlikeBut k w) := by
    by_cases hk : v.key = k
    · exact .inr ⟨hkey.trans hk, h.hides, hvw⟩
    · exact .inl (hvw.eq_of_ne hk)
  rw [apply_eq_foldlM, apply_eq_foldlM]
  exact foldlM_step_eq h.builtin hsame hmode hcases

theorem applySingle_eq (h : p.Conceals k) (hvw : v.AlikeBut k w) :
    p.applySingle v = p.applySingle w := h.apply_eq hvw rfl rfl rfl

theorem applyBulk_eq (h : p.Conceals k) {m n : KeyMap PropertyValue}
    (hmn : KeyMap.Rel (fun _ => PropertyValue.AlikeBut k) m n) : p.applyBulk m = p.applyBulk n := by
  have hvalues : Forall₂ (PropertyValue.AlikeBut k) m.values n.values := hmn.values fun _ _ _ h => h
  have hkept : Forall₂ Eq
      (m.values.filterMap fun v => (p.apply (.bulk v m) v).map fun w => (w.key, w))
      (n.values.filterMap fun v => (p.apply (.bulk v n) v).map fun w => (w.key, w)) := by
    refine List.rel_filterMap (fun v w hvw => ?_) hvalues
    have happly : p.apply (.bulk v m) v = p.apply (.bulk w n) w := h.apply_eq hvw rfl rfl rfl
    rw [happly]
    cases p.apply (.bulk w n) w with
    | none => exact .none
    | some u => exact .some rfl
  rw [List.forall₂_eq_eq_eq] at hkept
  unfold applyBulk
  rw [hkept]

end Pipeline.Conceals

/-! ### Views -/

namespace View

variable {m : Type → Type} {v : View m} {a b : SourceSet}

theorem lookup_eq (h : v.pipeline.Conceals k) (hab : a.AlikeBut k b) : v.lookup a = v.lookup b := by
  funext key
  unfold lookup
  have hfound := hab.lookup key
  generalize a.lookup key = x, b.lookup key = y at hfound ⊢
  cases hfound with
  | none => rfl
  | some hxy => exact h.applySingle_eq hxy

theorem visible_eq (h : v.pipeline.Conceals k) (hab : a.AlikeBut k b) :
    v.visible a = v.visible b := by
  unfold visible
  rw [h.applyBulk_eq hab.merge]

variable [Monad m]

theorem getValue_eq (h : v.pipeline.Conceals k) (hab : a.AlikeBut k b) :
    v.getValue a = v.getValue b :=
  getValue_congr (lookup_eq h hab) rfl rfl

theorem get_eq (h : v.pipeline.Conceals k) (hab : a.AlikeBut k b) : v.get a = v.get b :=
  get_congr (lookup_eq h hab) rfl rfl

theorem build_eq (h : v.pipeline.Conceals k) (hab : a.AlikeBut k b) : v.build a = v.build b :=
  build_congr (lookup_eq h hab) rfl rfl (visible_eq h hab) hab.version

end View

end LayeredConfig
