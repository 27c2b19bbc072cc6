import LayeredConfig.Error
import LayeredConfig.Order.Sort
import LayeredConfig.Property

/-! # Filters

A filter looks at a value on its way out and lets it through, changes it or vetoes it. A pipeline
runs its filters by priority, the highest first, and by name among equals. A veto ends the run and
makes the key absent; a filter that fails, or that gives the value another key, is passed over. -/

namespace LayeredConfig

/-- What a filter knows about the value it is given. -/
structure FilterContext where
  key : String
  /-- The value as it entered the pipeline. -/
  entering : PropertyValue
  /-- The whole merge, when a snapshot is built. -/
  merged : Option (KeyMap PropertyValue)
  /-- Whether a single key is read. -/
  isSingle : Bool

namespace FilterContext

/-- A value read by its key. -/
def single (v : PropertyValue) : FilterContext := ⟨v.key, v, none, true⟩

/-- A value of a merge. -/
def bulk (v : PropertyValue) (merged : KeyMap PropertyValue) : FilterContext :=
  ⟨v.key, v, some merged, false⟩

end FilterContext

/-- The kinds of access a filter applies to. -/
inductive FilterScope
  | bulk
  | always
  deriving DecidableEq

/-- Whether a filter of a scope has a say. -/
def FilterScope.applies (scope : FilterScope) (ctx : FilterContext) : Bool :=
  scope = .always || !ctx.isSingle

/-- A stage of a pipeline. -/
structure Filter where
  name : String
  priority : Int
  run : PropertyValue → FilterContext → Result (Option PropertyValue)

namespace Filter

/-- Whether one filter runs before another, or could as well. -/
def notAfter (a b : Filter) : Bool :=
  b.priority < a.priority || (a.priority = b.priority && a.name ≤ b.name)

theorem notAfter_preorder : Order.Preorder notAfter where
  trans a b c := by
    simp only [notAfter, Bool.or_eq_true, Bool.and_eq_true, decide_eq_true_eq]
    rintro (h | ⟨h, hn⟩) (h' | ⟨h', hn'⟩)
    · exact .inl (by omega)
    · exact .inl (by omega)
    · exact .inl (by omega)
    · exact .inr ⟨by omega, String.le_trans hn hn'⟩
  total a b := by
    simp only [notAfter, Bool.or_eq_true, Bool.and_eq_true, decide_eq_true_eq]
    rcases Int.lt_trichotomy a.priority b.priority with h | h | h
    · exact .inr (.inl h)
    · exact (String.le_total a.name b.name).imp (fun hn => .inr ⟨h, hn⟩) fun hn => .inr ⟨h.symm, hn⟩
    · exact .inl (.inl h)

/-- What a filter's answer makes of the value it was given. `none` is a veto; a failure or a new key
leaves the value as it was. -/
def handedOn (v : PropertyValue) : Result (Option PropertyValue) → Option PropertyValue
  | .ok none => none
  | .ok (some w) => some (if w.key = v.key then w else v)
  | .error _ => some v

/-- Runs one filter. -/
def step (f : Filter) (ctx : FilterContext) (v : PropertyValue) : Option PropertyValue :=
  handedOn v (f.run v ctx)

theorem key_of_step {f : Filter} {ctx : FilterContext} {v w : PropertyValue}
    (h : f.step ctx v = some w) : w.key = v.key := by
  simp only [step, handedOn] at h
  split at h
  · simp at h
  · simp only [Option.some.injEq] at h
    split at h <;> simp_all
  · simp_all

/-- Runs filters, each of them asked by `ask`, up to the first veto. -/
def askAll {m : Type → Type} [Monad m]
    (ask : Filter → PropertyValue → m (Result (Option PropertyValue))) :
    List Filter → PropertyValue → m (Option PropertyValue)
  | [], v => return some v
  | f :: rest, v => do
    match handedOn v (← ask f v) with
    | none => return none
    | some w => askAll ask rest w

/-- Filters that are functions are run one after the other. -/
theorem askAll_pure (ctx : FilterContext) (fs : List Filter) (v : PropertyValue) :
    (askAll (fun f v => (pure (f.run v ctx) : Id _)) fs v).run =
      fs.foldlM (fun v f => f.step ctx v) v := by
  induction fs generalizing v with
  | nil => rfl
  | cons f rest ih =>
    rw [askAll, List.foldlM_cons, pure_bind, step]
    cases handedOn v (f.run v ctx) with
    | none => rfl
    | some w => exact ih w

end Filter

/-- Filters in running order. -/
structure Pipeline where
  filters : List Filter

namespace Pipeline

/-- Puts filters in running order. -/
def ofFilters (filters : List Filter) : Pipeline := ⟨Order.sort Filter.notAfter filters⟩

def names (p : Pipeline) : List String := p.filters.map (·.name)

def size (p : Pipeline) : Nat := p.filters.length

def isEmpty (p : Pipeline) : Bool := p.filters.isEmpty

/-- Runs every filter, up to the first veto. -/
def apply (p : Pipeline) (ctx : FilterContext) (v : PropertyValue) : Option PropertyValue :=
  (Filter.askAll (fun f v => (pure (f.run v ctx) : Id _)) p.filters v).run

theorem apply_eq_foldlM (p : Pipeline) (ctx : FilterContext) (v : PropertyValue) :
    p.apply ctx v = p.filters.foldlM (fun v f => f.step ctx v) v := Filter.askAll_pure ctx p.filters v

/-- Filters a value read by its key. -/
def applySingle (p : Pipeline) (v : PropertyValue) : Option PropertyValue := p.apply (.single v) v

/-- Filters the values of a merge, each with the whole unfiltered merge at hand. -/
def applyBulk (p : Pipeline) (merged : KeyMap PropertyValue) : KeyMap PropertyValue :=
  .ofList (merged.values.filterMap fun v => (p.apply (.bulk v merged) v).map fun w => (w.key, w))

theorem key_of_apply {p : Pipeline} {ctx : FilterContext} {v w : PropertyValue}
    (h : p.apply ctx v = some w) : w.key = v.key := by
  obtain ⟨fs⟩ := p
  simp only [apply_eq_foldlM] at h
  induction fs generalizing v with
  | nil => simp_all
  | cons f fs ih =>
    simp only [List.foldlM_cons, Option.bind_eq_bind, Option.bind_eq_some_iff] at h
    obtain ⟨u, hu, hw⟩ := h
    rw [ih hw, Filter.key_of_step hu]

end Pipeline

end LayeredConfig
