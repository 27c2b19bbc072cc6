import LayeredConfig.Proofs.Secrecy.Concealment
import LayeredConfig.Proofs.SourceSet.Precedence
import LayeredConfig.Proofs.Store.Steps
import LayeredConfig.Proofs.View.Notes

/-! # Keys that are hidden from snapshots

Some filters drop keys from snapshots and let everything through that is read by its key: the one
that hides reserved keys, and selections of keys for snapshots only. Wherever they stand among other
filters, these do to the keys that stay what they do without them (`MarkedFilter.apply_ofFilters`).
So a view with such filters reads single keys as the view without them, and its snapshots are those
of the other one without the hidden keys (`Veils.restricts_build`), though these may go into the
values that stay.

Of the notes a snapshot keeps those whose names have no dots are always found (`get?_metadata`), in
the whole snapshot and in the one without the hidden keys. -/

namespace LayeredConfig

/-! ### Filters that hide -/

/-- A filter that drops keys from snapshots only. -/
inductive Hider
  | reserved
  | selection (inclusions exclusions : List (String → Bool)) (priority : Int)

namespace Hider

def toFilter : Hider → Filter
  | reserved => .hideReserved
  | selection inclusions exclusions priority =>
    KeySelection.toFilter ⟨inclusions, exclusions, .bulk, priority⟩

/-- Whether a key is dropped from snapshots. -/
def hides : Hider → String → Bool
  | reserved, key => isReserved key
  | selection inclusions exclusions priority, key =>
    !KeySelection.keeps ⟨inclusions, exclusions, .bulk, priority⟩ key

theorem step_toFilter (h : Hider) (ctx : FilterContext) (v : PropertyValue) :
    h.toFilter.step ctx v = if !ctx.isSingle && h.hides ctx.key then none else some v := by
  cases h with
  | reserved => exact Filter.step_hideReserved_eq ctx v
  | selection inclusions exclusions priority =>
    unfold toFilter hides
    rw [Filter.step_toFilter_selection]
    cases hkeeps : KeySelection.keeps ⟨inclusions, exclusions, .bulk, priority⟩ ctx.key <;>
      cases hmode : ctx.isSingle <;> simp [FilterScope.applies, hmode, hkeeps]

end Hider

/-- A filter, marked as one that hides or as another one. -/
inductive MarkedFilter
  | hider (h : Hider)
  | other (f : Filter)

namespace MarkedFilter

def toFilter : MarkedFilter → Filter
  | hider h => h.toFilter
  | other f => f

def isOther : MarkedFilter → Bool
  | hider _ => false
  | other _ => true

/-- Whether a key is hidden. -/
def hides : MarkedFilter → String → Bool
  | hider h, key => h.hides key
  | other _, _ => false

def filters (marked : List MarkedFilter) : List Filter := marked.map toFilter

/-- The filters that are not marked as ones that hide. -/
def others (marked : List MarkedFilter) : List Filter := filters (marked.filter isOther)

/-- Whether a key is hidden by some filter. -/
def hidden (marked : List MarkedFilter) (key : String) : Bool := marked.any (·.hides key)

/-- Filters that hide stop what they hide, and change nothing else. -/
theorem foldlM_step (marked : List MarkedFilter) (ctx : FilterContext) (v : PropertyValue) :
    (filters marked).foldlM (fun v f => f.step ctx v) v =
      if !ctx.isSingle && hidden marked ctx.key then none
      else (others marked).foldlM (fun v f => f.step ctx v) v := by
  unfold others filters hidden
  induction marked generalizing v with
  | nil => simp
  | cons first rest ih =>
    rw [List.map_cons, List.foldlM_cons, List.any_cons]
    cases first with
    | hider h =>
      have hstep : (MarkedFilter.hider h).toFilter.step ctx v =
          if !ctx.isSingle && h.hides ctx.key then none else some v := h.step_toFilter ctx v
      have hhides : (MarkedFilter.hider h).hides ctx.key = h.hides ctx.key := rfl
      have hrest := ih v
      rw [List.filter_cons_of_neg Bool.false_ne_true, hstep, hhides]
      generalize ctx.isSingle = isSingle at hrest ⊢
      cases isSingle with
      | true => exact hrest
      | false =>
        cases h.hides ctx.key with
        | true => rfl
        | false => exact hrest
    | other f =>
      have hstep : (MarkedFilter.other f).toFilter.step ctx v = f.step ctx v := rfl
      have hhides : (MarkedFilter.other f).hides ctx.key = false := rfl
      rw [List.filter_cons_of_pos rfl, List.map_cons, List.foldlM_cons, hstep, hhides,
        Bool.false_or]
      cases f.step ctx v with
      | none => simp
      | some w => exact ih w

/-- A pipeline with filters that hide does what it does without them, but for what is hidden. -/
theorem apply_ofFilters (marked : List MarkedFilter) (ctx : FilterContext) (v : PropertyValue) :
    (Pipeline.ofFilters (filters marked)).apply ctx v =
      if !ctx.isSingle && hidden marked ctx.key then none
      else (Pipeline.ofFilters (others marked)).apply ctx v := by
  let le (a b : MarkedFilter) := Filter.notAfter a.toFilter b.toFilter
  have hle : Order.Preorder le :=
    ⟨fun _ _ _ => Filter.notAfter_preorder.trans _ _ _,
      fun _ _ => Filter.notAfter_preorder.total _ _⟩
  have hfilters : Pipeline.ofFilters (filters marked) = ⟨filters (Order.sort le marked)⟩ :=
    congrArg Pipeline.mk (Order.sort_map toFilter marked)
  have hothers : Pipeline.ofFilters (others marked) = ⟨others (Order.sort le marked)⟩ := by
    refine congrArg Pipeline.mk ((Order.sort_map toFilter _).trans ?_)
    rw [Order.sort_filter hle]
    rfl
  have hhidden : hidden (Order.sort le marked) ctx.key = hidden marked ctx.key :=
    (Order.sort_perm marked).any_eq
  rw [hfilters, hothers, ← hhidden, Pipeline.apply_eq_foldlM, Pipeline.apply_eq_foldlM]
  exact foldlM_step (Order.sort le marked) ctx v

end MarkedFilter

/-! ### Views -/

/-- A view that hides some keys from the snapshots of another one, and otherwise reads like it. -/
structure View.Veils (hidden : String → Bool) (v v' : View Id) : Prop where
  apply : ∀ ctx x, v'.pipeline.apply ctx x =
    if !ctx.isSingle && hidden ctx.key then none else v.pipeline.apply ctx x
  evaluator : v'.evaluator = v.evaluator
  mask : v'.mask = v.mask

namespace View.Veils

variable {hidden : String → Bool} {v v' : View Id} (h : v.Veils hidden v')
include h

theorem lookup (set : SourceSet) : v'.lookup set = v.lookup set := by
  funext key
  unfold View.lookup
  refine congrArg _ (funext fun x => ?_)
  exact (h.apply (.single x) x).trans (if_neg Bool.false_ne_true)

/-- Single keys are read as without hiding. -/
theorem getValue (set : SourceSet) : v'.getValue set = v.getValue set :=
  getValue_congr (h.lookup set) h.evaluator h.mask

theorem get (set : SourceSet) : v'.get set = v.get set :=
  get_congr (h.lookup set) h.evaluator h.mask

theorem resolve (set : SourceSet) : v'.resolve set = v.resolve set :=
  resolve_congr (h.lookup set) h.evaluator h.mask

theorem applyBulk (set : SourceSet) :
    v'.pipeline.applyBulk set.merge = (v.pipeline.applyBulk set.merge).without hidden := by
  refine KeyMap.ext_get? fun key => ?_
  have hkey : ∀ key value, set.merge.get? key = some value → value.key = key :=
    fun _ _ => SourceSet.key_of_get?_merge
  rw [KeyMap.get?_without, Pipeline.get?_applyBulk _ hkey, Pipeline.get?_applyBulk _ hkey]
  cases hmerged : set.merge.get? key with
  | none => simp
  | some value =>
    simp only [Option.bind_some]
    rw [h.apply]
    simp only [FilterContext.bulk, Bool.not_false, Bool.true_and, hkey key value hmerged]

theorem visible (set : SourceSet) :
    v'.visible set = (v.visible set).filter fun p => !hidden p.1 := by
  unfold View.visible
  rw [h.applyBulk, KeyMap.entries_without, List.filter_filter, List.filter_filter]
  simp only [Bool.and_comm]

/-- A snapshot has the values that it has without hiding, but for those of hidden keys. -/
theorem values_build (set : SourceSet) :
    (v'.build set).run.values = (v.build set).run.values.without hidden := by
  refine KeyMap.ext_get? fun key => ?_
  rw [KeyMap.get?_without]
  refine (View.get?_build v' set key).trans ?_
  rw [h.applyBulk, KeyMap.get?_without, h.resolve]
  split
  · rfl
  · exact (View.get?_build v set key).symm

end View.Veils

/-! ### Snapshots -/

/-- A snapshot that is another one without hidden keys. `entries` are what the whole one is made of;
the notes on those that stay are found in both, if there are no dots in their names, and what is not
found in both is a note on a hidden key. -/
structure Snapshot.Restricts (hidden : String → Bool) (entries : List (String × PropertyValue))
    (whole part : Snapshot) : Prop where
  version : part.version = whole.version
  values : part.values = whole.values.without hidden
  notes : ∀ key value, (key, value) ∈ entries → hidden key = false →
    ∀ name text, '.' ∉ name.toList → value.note? name = some text →
      whole.metadata.get? (noteKey key name) = some text ∧
        part.metadata.get? (noteKey key name) = some text
  rest : ∀ k, part.metadata.get? k ≠ whole.metadata.get? k →
    ∃ key value name, (key, value) ∈ entries ∧ hidden key = true ∧
      (value.note? name).isSome ∧ k = noteKey key name

/-- **Hiding restricts snapshots.** -/
theorem View.Veils.restricts_build {hidden : String → Bool} {v v' : View Id}
    (h : v.Veils hidden v') (set : SourceSet) :
    Snapshot.Restricts hidden (v.visible set) (v.build set).run (v'.build set).run := by
  have hvalues := h.values_build set
  have hversion := View.version_build v set
  have hversion' := View.version_build v' set
  have hwhole := View.metadata_build v set
  have hpart := View.metadata_build v' set
  rw [h.visible] at hpart
  have hsorted := View.pairwise_lt_visible v set
  generalize (v.build set).run = whole, (v'.build set).run = part at *
  refine ⟨hversion'.trans hversion.symm, hvalues, ?_, ?_⟩
  · intro key value hmem hkey name text hname hnote
    have hstays : (key, value) ∈ (v.visible set).filter fun p => !hidden p.1 :=
      List.mem_filter.2 ⟨hmem, by simp [hkey]⟩
    rw [hwhole, hpart]
    exact ⟨View.get?_metadata hsorted hmem hname hnote,
      View.get?_metadata (hsorted.filter _) hstays hname hnote⟩
  · intro k hk
    rw [hwhole, hpart] at hk
    by_contra hnone
    refine hk (View.get?_metadata_filter _ _ fun e he hp name hname heq => hnone ?_)
    exact ⟨e.1, e.2, name, he, by simpa using hp, hname, heq⟩

end LayeredConfig
