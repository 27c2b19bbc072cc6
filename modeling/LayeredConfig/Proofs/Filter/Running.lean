import LayeredConfig.Filter.Action
import LayeredConfig.Proofs.View.Reading

/-! # How a pipeline runs

A pipeline calls its filters in running order, each on what the one before it has left. `Passes`
tells how filters take a value to another one: an answer that keeps the key is handed on, and where
a filter fails or gives another key the value stays as it was. A pipeline gives what its filters
take the value to (`foldlM_step_eq_some_iff`), unless one of them vetoes what reaches it
(`foldlM_step_eq_none_iff`).

Which filters are called is seen when the loop of the pipeline (`Filter.askAll`) is run in a state
that records the calls. It gives what the pipeline gives (`recordedRun_eq`), and the calls are those
of the filters up to the veto. -/

namespace LayeredConfig

/-! ### The order -/

/-- Sorting leaves elements that are equal in order as they were. -/
theorem Order.filter_sort_of_alike {α : Type} {le : α → α → Bool} (h : Order.Preorder le)
    {p : α → Bool} (halike : ∀ a b, p a = true → p b = true → le a b = true) (xs : List α) :
    (Order.sort le xs).filter p = xs.filter p := by
  rw [← Order.sort_filter h]
  refine Order.sort_eq_self (List.pairwise_of_forall_mem_list fun a ha b hb => ?_)
  exact halike a b (List.mem_filter.1 ha).2 (List.mem_filter.1 hb).2

/-- Filters in the order in which they run: the highest priority first, among equals by name, and
those that are equal in both as they were registered. -/
structure Filter.InRunningOrder (registered running : List Filter) : Prop where
  perm : running.Perm registered
  sorted : running.Pairwise fun f g =>
    g.priority < f.priority ∨ (f.priority = g.priority ∧ f.name ≤ g.name)
  stable : ∀ priority name,
    (running.filter fun f => f.priority = priority && f.name = name) =
      registered.filter fun f => f.priority = priority && f.name = name

theorem Pipeline.inRunningOrder_ofFilters (registered : List Filter) :
    Filter.InRunningOrder registered (ofFilters registered).filters where
  perm := Order.sort_perm registered
  sorted := by
    refine (Order.pairwise_sort Filter.notAfter_preorder registered).imp fun h => ?_
    simpa [Filter.notAfter] using h
  stable priority name := by
    refine Order.filter_sort_of_alike Filter.notAfter_preorder (fun f g hf hg => ?_) registered
    simp only [Bool.and_eq_true, decide_eq_true_eq] at hf hg
    simp [Filter.notAfter, hf, hg]

/-! ### What filters make of a value -/

namespace Filter

variable {ctx : FilterContext} {f : Filter} {fs kept : List Filter} {v w x : PropertyValue}

/-- How filters take a value to another one if none of them vetoes it. Those that are `kept` answer
with the key of what they were given, and the answer is handed on; the others fail or give another
key, and what they were given is handed on. -/
inductive Passes (ctx : FilterContext) :
    List Filter → PropertyValue → List Filter → PropertyValue → Prop
  | nil (v : PropertyValue) : Passes ctx [] v [] v
  | keeps {f : Filter} {fs kept : List Filter} {v w x : PropertyValue}
      (answer : f.run v ctx = .ok (some w)) (key : w.key = v.key) (rest : Passes ctx fs w kept x) :
      Passes ctx (f :: fs) v (f :: kept) x
  | renames {f : Filter} {fs kept : List Filter} {v w x : PropertyValue}
      (answer : f.run v ctx = .ok (some w)) (key : w.key ≠ v.key) (rest : Passes ctx fs v kept x) :
      Passes ctx (f :: fs) v kept x
  | fails {f : Filter} {fs kept : List Filter} {v x : PropertyValue} {error : ConfigError}
      (answer : f.run v ctx = .error error) (rest : Passes ctx fs v kept x) :
      Passes ctx (f :: fs) v kept x

/-- Whether a filter vetoes what reaches it of a value through the filters ahead of it. -/
def Vetoes (ctx : FilterContext) (ahead : List Filter) (f : Filter) (v : PropertyValue) : Prop :=
  ∃ kept u, Passes ctx ahead v kept u ∧ f.run u ctx = .ok none

theorem step_eq_none_iff : f.step ctx v = none ↔ f.run v ctx = .ok none := by
  unfold step handedOn
  split <;> simp_all

namespace Passes

theorem sublist (h : Passes ctx fs v kept x) : kept.Sublist fs := by
  induction h with
  | nil v => exact .slnil
  | keeps _ _ _ ih => exact ih.cons_cons _
  | renames _ _ _ ih => exact ih.cons _
  | fails _ _ ih => exact ih.cons _

theorem key_eq (h : Passes ctx fs v kept x) : x.key = v.key := by
  induction h with
  | nil v => rfl
  | keeps _ hkey _ ih => exact ih.trans hkey
  | renames _ _ _ ih => exact ih
  | fails _ _ ih => exact ih

/-- The filters that are kept, each asked on the answer of the one before it, come to the same. -/
theorem foldlM_kept (h : Passes ctx fs v kept x) :
    kept.foldlM (fun u f => (f.run u ctx).skip.join) v = some x := by
  induction h with
  | nil v => rfl
  | keeps hanswer _ _ ih =>
    rw [List.foldlM_cons, hanswer]
    exact ih
  | renames _ _ _ ih => exact ih
  | fails _ _ ih => exact ih

/-- The first filter hands a value on to the others. -/
theorem exists_step (h : Passes ctx (f :: fs) v kept x) :
    ∃ w kept', f.step ctx v = some w ∧ Passes ctx fs w kept' x := by
  unfold step handedOn
  cases h with
  | keeps hanswer hkey hrest => exact ⟨_, _, by simp only [hanswer, if_pos hkey], hrest⟩
  | renames hanswer hkey hrest => exact ⟨_, _, by simp only [hanswer, if_neg hkey], hrest⟩
  | fails hanswer hrest => exact ⟨_, _, by simp only [hanswer], hrest⟩

/-- A filter goes in front of those that it hands its value on to. -/
theorem of_step (hstep : f.step ctx v = some w) (h : Passes ctx fs w kept x) :
    ∃ kept', Passes ctx (f :: fs) v kept' x := by
  unfold step handedOn at hstep
  split at hstep
  · cases hstep
  · rename_i w' hanswer
    split at hstep
    · rename_i hkey
      cases hstep
      exact ⟨f :: kept, .keeps hanswer hkey h⟩
    · rename_i hkey
      cases hstep
      exact ⟨kept, .renames hanswer hkey h⟩
  · rename_i error hanswer
    cases hstep
    exact ⟨kept, .fails hanswer h⟩

/-- Filters that take a value to another one hand it on to those behind them. -/
theorem foldlM_step_append (h : Passes ctx fs v kept x) (behind : List Filter) :
    (fs ++ behind).foldlM (fun v f => f.step ctx v) v =
      behind.foldlM (fun v f => f.step ctx v) x := by
  induction fs generalizing v kept with
  | nil =>
    cases h
    rfl
  | cons f rest ih =>
    obtain ⟨w, kept', hstep, hrest⟩ := h.exists_step
    rw [List.cons_append, List.foldlM_cons, hstep]
    exact ih hrest

end Passes

/-- Filters take a value to another one, or one of them vetoes what reaches it. -/
theorem passes_or_vetoes (ctx : FilterContext) (fs : List Filter) (v : PropertyValue) :
    (∃ kept x, Passes ctx fs v kept x) ∨
      ∃ ahead f behind, fs = ahead ++ f :: behind ∧ Vetoes ctx ahead f v := by
  induction fs generalizing v with
  | nil => exact .inl ⟨[], v, .nil v⟩
  | cons f rest ih =>
    cases hstep : f.step ctx v with
    | none => exact .inr ⟨[], f, rest, rfl, [], v, .nil v, step_eq_none_iff.1 hstep⟩
    | some w =>
      rcases ih w with ⟨kept, x, hpasses⟩ | ⟨ahead, g, behind, rfl, kept, u, hpasses, hveto⟩
      · obtain ⟨kept', hpasses'⟩ := Passes.of_step hstep hpasses
        exact .inl ⟨kept', x, hpasses'⟩
      · obtain ⟨kept', hpasses'⟩ := Passes.of_step hstep hpasses
        exact .inr ⟨f :: ahead, g, behind, rfl, kept', u, hpasses', hveto⟩

theorem foldlM_step_of_vetoes {ahead : List Filter} (h : Vetoes ctx ahead f v)
    (behind : List Filter) :
    (ahead ++ f :: behind).foldlM (fun v f => f.step ctx v) v = none := by
  obtain ⟨kept, u, hpasses, hveto⟩ := h
  rw [hpasses.foldlM_step_append, List.foldlM_cons, step_eq_none_iff.2 hveto]
  rfl

theorem foldlM_step_of_passes (h : Passes ctx fs v kept x) :
    fs.foldlM (fun v f => f.step ctx v) v = some x := by
  have hrun := h.foldlM_step_append []
  rwa [List.append_nil] at hrun

/-- A run gives what the filters take the value to. -/
theorem foldlM_step_eq_some_iff :
    fs.foldlM (fun v f => f.step ctx v) v = some x ↔ ∃ kept, Passes ctx fs v kept x := by
  constructor
  · intro h
    rcases passes_or_vetoes ctx fs v with ⟨kept, y, hpasses⟩ | ⟨ahead, f, behind, rfl, hveto⟩
    · cases (foldlM_step_of_passes hpasses).symm.trans h
      exact ⟨kept, hpasses⟩
    · cases (foldlM_step_of_vetoes hveto behind).symm.trans h
  · rintro ⟨kept, hpasses⟩
    exact foldlM_step_of_passes hpasses

/-- A run gives nothing if a filter vetoes what reaches it. -/
theorem foldlM_step_eq_none_iff :
    fs.foldlM (fun v f => f.step ctx v) v = none ↔
      ∃ ahead f behind, fs = ahead ++ f :: behind ∧ Vetoes ctx ahead f v := by
  constructor
  · intro h
    rcases passes_or_vetoes ctx fs v with ⟨kept, y, hpasses⟩ | hveto
    · cases (foldlM_step_of_passes hpasses).symm.trans h
    · exact hveto
  · rintro ⟨ahead, f, behind, rfl, hveto⟩
    exact foldlM_step_of_vetoes hveto behind

/-! ### The calls -/

/-- A filter is called, and the call is recorded. -/
def recordedCall (ctx : FilterContext) (f : Filter) (v : PropertyValue) :
    StateM (List (Filter × PropertyValue)) (Result (Option PropertyValue)) := do
  modify (· ++ [(f, v)])
  return f.run v ctx

/-- What filters make of a value, and the calls on the way: the filters in the order of the calls,
each with the value it was given. -/
def recordedRun (ctx : FilterContext) (fs : List Filter) (v : PropertyValue) :
    Option PropertyValue × List (Filter × PropertyValue) :=
  ((askAll (recordedCall ctx) fs v).run []).run

/-- The calls that filters get: each with the value that the ones ahead hand on, up to a veto. -/
def calls (ctx : FilterContext) : List Filter → PropertyValue → List (Filter × PropertyValue)
  | [], _ => []
  | f :: rest, v => (f, v) :: ((f.step ctx v).map (calls ctx rest)).getD []

theorem askAll_recordedCall_run (fs : List Filter) (v : PropertyValue)
    (log : List (Filter × PropertyValue)) :
    (askAll (recordedCall ctx) fs v).run log =
      pure (fs.foldlM (fun v f => f.step ctx v) v, log ++ calls ctx fs v) := by
  induction fs generalizing v log with
  | nil => rw [calls, List.append_nil]; rfl
  | cons f rest ih =>
    have hcall : (recordedCall ctx f v).run log = pure (f.run v ctx, log ++ [(f, v)]) := rfl
    rw [askAll, StateT.run_bind, hcall, pure_bind, List.foldlM_cons, calls, step]
    cases handedOn v (f.run v ctx) with
    | none => rfl
    | some w => simpa using ih w (log ++ [(f, v)])

theorem recordedRun_eq (ctx : FilterContext) (fs : List Filter) (v : PropertyValue) :
    recordedRun ctx fs v = (fs.foldlM (fun v f => f.step ctx v) v, calls ctx fs v) :=
  askAll_recordedCall_run fs v []

theorem calls_cons_of_step (hstep : f.step ctx v = some w) :
    calls ctx (f :: fs) v = (f, v) :: calls ctx fs w := by
  rw [calls, hstep]
  rfl

/-- Filters that take a value to another one are all called before those behind them. -/
theorem Passes.map_fst_calls (h : Passes ctx fs v kept x) (behind : List Filter) :
    (calls ctx (fs ++ behind) v).map Prod.fst = fs ++ (calls ctx behind x).map Prod.fst := by
  induction fs generalizing v kept with
  | nil =>
    cases h
    rfl
  | cons f rest ih =>
    obtain ⟨w, kept', hstep, hrest⟩ := h.exists_step
    rw [List.cons_append, calls_cons_of_step hstep, List.map_cons, ih hrest, List.cons_append]

/-- No filter behind a veto is called. -/
theorem map_fst_calls_of_vetoes {ahead : List Filter} (h : Vetoes ctx ahead f v)
    (behind : List Filter) :
    (calls ctx (ahead ++ f :: behind) v).map Prod.fst = ahead ++ [f] := by
  obtain ⟨kept, u, hpasses, hveto⟩ := h
  rw [hpasses.map_fst_calls, calls, step_eq_none_iff.2 hveto]
  rfl

/-- A filter is called with what the ones that were called before it take the value to. -/
theorem exists_passes_of_calls {before after : List (Filter × PropertyValue)}
    (h : calls ctx fs v = before ++ (f, x) :: after) :
    ∃ kept, Passes ctx (before.map Prod.fst) v kept x := by
  induction before generalizing fs v with
  | nil =>
    cases fs with
    | nil => cases h
    | cons g rest =>
      obtain ⟨rfl, rfl⟩ := Prod.mk.inj (List.cons.inj h).1
      exact ⟨[], .nil _⟩
  | cons call before ih =>
    cases fs with
    | nil => cases h
    | cons g rest =>
      obtain ⟨rfl, htail⟩ := List.cons.inj h
      cases hstep : g.step ctx v with
      | none =>
        rw [hstep] at htail
        exact absurd htail.symm (List.append_ne_nil_of_right_ne_nil _ (List.cons_ne_nil _ _))
      | some w =>
        rw [hstep] at htail
        obtain ⟨kept, hpasses⟩ := ih htail
        exact Passes.of_step hstep hpasses

end Filter

/-! ### Pipelines -/

namespace Pipeline

open LayeredConfig.Filter

/-- What a filtered merge has is filtered by itself, with the whole merge at hand, and keeps its
key. -/
theorem own_keys_applyBulk (p : Pipeline) {merged : KeyMap PropertyValue}
    (hkeys : ∀ key value, merged.get? key = some value → value.key = key) {key : String}
    {value : PropertyValue} (h : (p.applyBulk merged).get? key = some value) :
    value.key = key ∧ (merged.get? key).isSome := by
  rw [get?_applyBulk p hkeys] at h
  obtain ⟨entering, hmerged, happly⟩ := Option.bind_eq_some_iff.1 h
  exact ⟨(key_of_apply happly).trans (hkeys key entering hmerged), by rw [hmerged]; rfl⟩

/-- **A pipeline keeps keys and passes over what fails.** Filters run by priority, then by name,
then as they were registered. A value is vetoed exactly if some filter answers what reaches it with
a veto, and then the filters up to that one are called and no others. Otherwise a value is given
that has the key it had, and it is what the filters come to that answer with the key they were
given, each asked on the answer of the one before it. The calls are recorded by a run that gives
the same, and each is made with the value that the filters before it have left.

The values of a merge under their own keys are filtered one by one, each with the whole unfiltered
merge at hand, and come under their own keys again. -/
theorem runs_in_order (registered : List Filter) :
    let p := ofFilters registered
    InRunningOrder registered p.filters ∧
    (∀ ctx v,
      (p.apply ctx v = none ↔
        ∃ ahead f behind, p.filters = ahead ++ f :: behind ∧ Vetoes ctx ahead f v) ∧
      (∀ x, p.apply ctx v = some x ↔ ∃ kept, Passes ctx p.filters v kept x) ∧
      (∀ kept x, Passes ctx p.filters v kept x → x.key = v.key ∧ kept.Sublist p.filters ∧
        kept.foldlM (fun u f => (f.run u ctx).skip.join) v = some x) ∧
      (recordedRun ctx p.filters v).1 = p.apply ctx v ∧
      (∀ ahead f behind, p.filters = ahead ++ f :: behind → Vetoes ctx ahead f v →
        (recordedRun ctx p.filters v).2.map Prod.fst = ahead ++ [f]) ∧
      ∀ before f x after, (recordedRun ctx p.filters v).2 = before ++ (f, x) :: after →
        ∃ kept, Passes ctx (before.map Prod.fst) v kept x) ∧
    ∀ merged : KeyMap PropertyValue,
      (∀ key value, merged.get? key = some value → value.key = key) →
      (∀ key, (p.applyBulk merged).get? key =
        (merged.get? key).bind fun value => p.apply ⟨key, value, some merged, false⟩ value) ∧
      ∀ key value, (p.applyBulk merged).get? key = some value →
        value.key = key ∧ (merged.get? key).isSome := by
  intro p
  refine ⟨inRunningOrder_ofFilters registered, fun ctx v => ?_, fun merged hkeys =>
    ⟨fun key => ?_, fun key value => p.own_keys_applyBulk hkeys⟩⟩
  · rw [recordedRun_eq, p.apply_eq_foldlM]
    refine ⟨foldlM_step_eq_none_iff, fun x => foldlM_step_eq_some_iff,
      fun kept x h => ⟨h.key_eq, h.sublist, h.foldlM_kept⟩, rfl,
      fun ahead f behind hsplit hveto => ?_, fun before f x after => exists_passes_of_calls⟩
    rw [hsplit]
    exact map_fst_calls_of_vetoes hveto behind
  · rw [get?_applyBulk p hkeys]
    refine Option.bind_congr fun value hvalue => ?_
    rw [FilterContext.bulk, hkeys key value hvalue]

/-- Filters that fail, rename, veto a key and write, in no order. -/
def motley : List Filter :=
  [FilterAction.toFilter (.append "!") "write" 0 [] .always,
    FilterAction.toFilter .veto "veto" 1 ["pin"] .always,
    FilterAction.toFilter (.rename "other") "rename" 5 [] .always,
    FilterAction.toFilter (.fail "broken") "fail" 5 [] .always]

def twoValues : KeyMap PropertyValue :=
  .ofList [("pin", .of "pin" "1234" "vault"), ("port", .of "port" "80" "web")]

theorem own_keys_twoValues {key : String} {value : PropertyValue}
    (h : twoValues.get? key = some value) : value.key = key := by
  rcases List.mem_cons.1 (KeyMap.mem_of_get?_ofList h) with heq | hmem
  · cases heq
    rfl
  · cases List.mem_singleton.1 hmem
    rfl

/-- One key is vetoed, and another has what the only filter makes of it that keeps keys. -/
theorem runs_in_order_motley :
    ((ofFilters motley).applyBulk twoValues).get? "pin" = none ∧
    ((ofFilters motley).applyBulk twoValues).get? "port" = some (.of "port" "80!" "web") ∧
    (recordedRun (.single (.of "pin" "1234" "vault")) (ofFilters motley).filters
        (.of "pin" "1234" "vault")).2.map (fun call => call.1.name) =
      ["fail", "rename", "veto"] := by
  obtain ⟨hbulk, -⟩ := (runs_in_order motley).2.2 twoValues fun _ _ => own_keys_twoValues
  rw [hbulk, hbulk]
  exact ⟨by decide +kernel, by decide +kernel, by decide +kernel⟩

end Pipeline

end LayeredConfig
