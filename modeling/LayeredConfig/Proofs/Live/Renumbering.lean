import LayeredConfig.Proofs.Evaluator.Bounds
import LayeredConfig.Proofs.Live.Calls
import LayeredConfig.Proofs.Live.Coupling
import LayeredConfig.Proofs.Live.Reading
import LayeredConfig.Proofs.Store.Steps
import Mathlib.Data.List.Count

/-! # Reloads under other numbers

The numbers of reloads are compared and handed on to providers, and nothing else depends on them.
So two contexts that differ in the numbers alone, and whose providers load the same under the number
of the one as under that of the other, do alike at every step (`Renumbering.Relates`), whatever
hooks and listeners do on the way.

`Renumbering` says which number of the first context belongs to one of the second. It keeps the
order, but it may leave out numbers, and then the first context has made reloads that the second one
has not. Reloads within loads need no more fuel for it (`coupled_reloadWithin`). -/

namespace LayeredConfig

open List (Forall₂)

/-- Providers of which the first one loads under the number `ρ k` what the second one loads under
`k`. -/
structure Provider.Renumbered (ρ : Nat → Nat) (p p' : Provider) : Prop where
  name : p'.name = p.name
  load : ∀ k, p'.load k = p.load (ρ k)
  nested : ∀ k, k ∈ p'.nested ↔ ρ k ∈ p.nested

/-- The numbers of a first context and those of a second one, whose setup is given. There are fixed
sources or not, whatever happens. -/
structure Renumbering where
  /-- The number in the first context, from that in the second. -/
  number : Nat → Nat
  /-- The providers of the first context. -/
  providers : List Provider
  /-- The setup of the second context. -/
  setup : Setup
  hasFixed : Bool
  /-- The files that there may be. -/
  files : FileTree → Prop
  /-- Whether only reloads are finished that were started. -/
  isOrderly : Prop
  lt_iff : ∀ a b, number a < number b ↔ a < b
  alike : Forall₂ (Provider.Renumbered number) providers setup.providers

namespace Renumbering

variable (r : Renumbering)

theorem le_of_le {a b : Nat} (h : a ≤ b) : r.number a ≤ r.number b :=
  Nat.le_of_not_lt fun hlt => Nat.not_lt_of_le h ((r.lt_iff b a).1 hlt)

theorem lt_succ (a : Nat) : r.number a < r.number (a + 1) := (r.lt_iff _ _).2 (Nat.lt_succ_self a)

end Renumbering

namespace Provider

variable {ρ : Nat → Nat} {providers providers' : List Provider}

/-- Under numbers that belong together the same is loaded. -/
theorem loadAll_renumbered (h : Forall₂ (Renumbered ρ) providers providers') (limit : Duration)
    (number : Nat) (files : FileTree) :
    loadAll providers limit (ρ number) files = loadAll providers' limit number files := by
  have hresults : (providers.map fun p => (p.loadOne limit (ρ number) files).skip) =
      providers'.map fun p => (p.loadOne limit number files).skip := by
    induction h with
    | nil => rfl
    | cons hp _ ih =>
      rw [List.map_cons, List.map_cons, ih]
      unfold loadOne
      rw [hp.name, hp.load]
  unfold loadAll
  rw [hresults]

end Provider

/-! ### The store -/

namespace Store

/-- The store with other numbers of reloads. -/
def renumber (s : Store) (reloads publishedReload : Nat) : Store :=
  { s with reloads, publishedReload }

variable (v : View Id) (s : Store) (a b : Nat)

theorem snapshot_renumber : (s.renumber a b).snapshot v = s.snapshot v := rfl

theorem keep_renumber (built : Snapshot) :
    (s.renumber a b).keep built = (s.keep built).renumber a b := by
  unfold keep
  cases hcached : s.cached with
  | none => simp [renumber, hcached]
  | some kept =>
    by_cases hle : built.version ≤ kept.version
    · simp [renumber, hcached, hle]
    · simp [renumber, hcached, hle]

theorem seen_renumber : (s.renumber a b).seen v = (s.seen v).renumber a b := by
  unfold seen
  rw [snapshot_renumber, keep_renumber]
  show (if s.current?.isSome then _ else _) = _
  split <;> rfl

theorem between_renumber (old : Snapshot) :
    Store.between v old (s.renumber a b) =
      ((Store.between v old s).1, (Store.between v old s).2.renumber a b) := by
  unfold between
  rw [snapshot_renumber, seen_renumber]

theorem commit_renumber (changes : List Change) :
    (s.renumber a b).commit v changes =
      ((s.commit v changes).1, (s.commit v changes).2.renumber a b) := by
  have hreplace (w : Writable) : ((s.seen v).renumber a b).replaceWritable w
      ((s.renumber a b).written w changes) =
        ((s.seen v).replaceWritable w (s.written w changes)).renumber a b := rfl
  have hwritable : (s.renumber a b).writable = s.writable := rfl
  unfold commit
  rw [hwritable]
  cases s.writable with
  | none => rfl
  | some w =>
    dsimp only
    rw [seen_renumber, hreplace, snapshot_renumber, between_renumber]

/-- The end of a reload under two numbers that compare alike with what is published. -/
theorem finishReload_renumber {ρ : Nat → Nat} (hρ : ∀ a b, ρ a < ρ b ↔ a < b)
    {providers providers' : List Provider} (hlength : providers.length = providers'.length)
    (number : Nat) (loaded : Loaded) :
    (s.renumber a (ρ s.publishedReload)).finishReload v providers (ρ number) loaded =
      ((s.finishReload v providers' number loaded).1,
        (s.finishReload v providers' number loaded).2.renumber a
          (ρ (s.finishReload v providers' number loaded).2.publishedReload)) := by
  have hempty : providers.isEmpty = providers'.isEmpty := by
    rw [Bool.eq_iff_iff, List.isEmpty_iff_length_eq_zero, List.isEmpty_iff_length_eq_zero, hlength]
  have hfixed : (s.renumber a (ρ s.publishedReload)).fixed = s.fixed := rfl
  have hpublished : (s.renumber a (ρ s.publishedReload)).publishedReload = ρ s.publishedReload :=
    rfl
  have hadopt : ((s.seen v).renumber a (ρ s.publishedReload)).adopt (ρ number) loaded =
      ((s.seen v).adopt number loaded).renumber a (ρ number) := rfl
  have hnumber : (Store.between v (s.snapshot v)
      ((s.seen v).adopt number loaded)).2.publishedReload = number := by
    simp [between]
  unfold finishReload
  rw [Provider.allFailed, Provider.allFailed, hempty, hlength, hfixed, hpublished]
  split
  · rfl
  · by_cases hlt : number < s.publishedReload
    · rw [if_pos ((hρ _ _).2 hlt), if_pos hlt, snapshot_renumber, seen_renumber]
      simp
    · rw [if_neg (mt (hρ _ _).1 hlt), if_neg hlt, snapshot_renumber, seen_renumber]
      dsimp only
      rw [hadopt, between_renumber, hnumber]

/-- Whether there are fixed sources does not change. -/
theorem isEmpty_fixed_commit (changes : List Change) :
    (s.commit v changes).2.fixed.isEmpty = s.fixed.isEmpty := by
  rcases commit_cases v changes s with ⟨-, h⟩ | ⟨w, event, -, h, -⟩
  · rw [h]
  · rw [h]
    simp [replaceWritable]

theorem isEmpty_fixed_finishReload (providers : List Provider) (number : Nat) (loaded : Loaded) :
    (s.finishReload v providers number loaded).2.fixed.isEmpty = s.fixed.isEmpty := by
  rcases finishReload_cases v providers number loaded s with h | ⟨-, h⟩ | ⟨event, -, h, -⟩
  · rw [h]
  · rw [h, fixed_seen]
  · rw [h, fixed_seen, fixed_adopt, fixed_seen]

end Store

/-! ### Reading -/

section Reading

variable {m : Type → Type} [Monad m] {Ends : (α : Type) → m α → Prop} (hends : IsComposable Ends)
include hends

theorem IsComposable.mapM [LawfulMonad m] {α β : Type} {f : α → m β} (hf : ∀ a, Ends β (f a))
    (as : List α) : Ends (List β) (as.mapM f) := by
  induction as with
  | nil => exact hends.pure _
  | cons a rest ih =>
    rw [List.mapM_cons]
    exact hends.bind (hf a) fun _ => hends.bind ih fun _ => hends.pure _

variable [LawfulMonad m] {v : View m}
  (hv : ∀ r, v.evaluator.Knows r → ∀ expression scope, Ends _ (r.evaluate expression scope))
include hv

namespace View

/-- What holds of asking each resolver holds of resolving a text. -/
theorem ends_resolve (set : SourceSet) (key raw : String) : Ends _ (v.resolve set key raw) := by
  refine hends.bind ?_ fun rendered => hends.pure _
  rw [← Evaluator.conduct_dialogue]
  refine Dialogue.conduct_ends hends fun events out hr request hmem => ?_
  exact hv _ ((Evaluator.sound_of_runs hr).2 _ hmem).known _ _

theorem ends_getValue (set : SourceSet) (key : String) : Ends _ (v.getValue set key) := by
  unfold getValue
  split
  · exact hends.pure _
  · split
    · exact hends.pure _
    · exact hends.bind (v.ends_resolve hends hv set key _) fun _ => hends.pure _

theorem ends_get (set : SourceSet) (key : String) : Ends _ (v.get set key) :=
  hends.bind (v.ends_getValue hends hv set key) fun _ => hends.pure _

theorem ends_build (set : SourceSet) : Ends _ (v.build set) := by
  refine hends.bind (hends.mapM (fun p => ?_) _) fun values => hends.pure _
  exact hends.bind (v.ends_resolve hends hv set p.1 _) fun _ => hends.pure _

end View

end Reading

/-! ### Contexts at work -/

namespace Renumbering

open Live

variable (r : Renumbering) {k : Nat} {l l' : Live}

/-- The first context, from the second one and the number of reloads that the first one has made.
-/
def lift (reloads : Nat) (l : Live) : Live :=
  { l with
    setup := { l.setup with providers := r.providers }
    store := l.store.renumber reloads (r.number l.store.publishedReload) }

/-- Whether two contexts at work differ in the numbers of reloads alone. At least `k` reloads have
been started in the second one. -/
structure Relates (k : Nat) (l l' : Live) : Prop where
  /-- The first context has made `n` reloads, and the numbers still to come belong together. -/
  lifted : ∃ n, l = r.lift n l' ∧ ∀ i, r.number (l'.store.reloads + (i + 1)) = n + (i + 1)
  setup : l'.setup = r.setup
  files : r.files l'.files
  hasFixed : l'.store.fixed.isEmpty = !r.hasFixed
  started : k ≤ l'.store.reloads
  orderly : r.isOrderly → l'.store.publishedReload ≤ l'.store.reloads

variable {r}

namespace Relates

variable (h : r.Relates k l l')
include h

theorem view (write : Write) : l.view write = l'.view write := by
  obtain ⟨n, rfl, -⟩ := h.lifted
  rfl

theorem quiet : l.quiet = l'.quiet := by
  obtain ⟨n, rfl, -⟩ := h.lifted
  rfl

theorem providers : l.setup.providers = r.providers := by
  obtain ⟨n, rfl, -⟩ := h.lifted
  rfl

theorem published : l.store.published = l'.store.published := by
  obtain ⟨n, rfl, -⟩ := h.lifted
  rfl

theorem cached : l.store.cached = l'.store.cached := by
  obtain ⟨n, rfl, -⟩ := h.lifted
  rfl

theorem armed : l.armed = l'.armed := by
  obtain ⟨n, rfl, -⟩ := h.lifted
  rfl

theorem answers : l.answers = l'.answers := by
  obtain ⟨n, rfl, -⟩ := h.lifted
  rfl

theorem listeners : l.listeners = l'.listeners := by
  obtain ⟨n, rfl, -⟩ := h.lifted
  rfl

theorem mono {j : Nat} (hj : j ≤ k) : r.Relates j l l' :=
  { h with started := Nat.le_trans hj h.started }

end Relates

/-! ### Steps -/

theorem coupled_modify {f : Live → Live} (hlift : ∀ n l, f (r.lift n l) = r.lift n (f l))
    (hsetup : ∀ l, (f l).setup = l.setup) (hfiles : ∀ l, r.files l.files → r.files (f l).files)
    (hstore : ∀ l, (f l).store = l.store) :
    Coupled (r.Relates k) Eq (modify f) (modify f) := by
  refine .modify fun l l' h => ?_
  obtain ⟨n, rfl, hn⟩ := h.lifted
  refine ⟨⟨n, hlift n l', ?_⟩, (hsetup l').trans h.setup, hfiles l' h.files, ?_, ?_, ?_⟩
  · rwa [hstore]
  · rw [hstore]
    exact h.hasFixed
  · rw [hstore]
    exact h.started
  · rw [hstore]
    exact h.orderly

/-- A step of the store that starts no reload. -/
theorem coupled_onStore {α : Type} {step step' : Store → α × Store}
    (hstep : ∀ n s, step (s.renumber n (r.number s.publishedReload)) =
      ((step' s).1, (step' s).2.renumber n (r.number (step' s).2.publishedReload)))
    (hreloads : ∀ s, (step' s).2.reloads = s.reloads)
    (hfixed : ∀ s, (step' s).2.fixed.isEmpty = s.fixed.isEmpty)
    (horderly : r.isOrderly → ∀ s, k ≤ s.reloads → s.publishedReload ≤ s.reloads →
      (step' s).2.publishedReload ≤ s.reloads) :
    Coupled (r.Relates k) Eq (onStore step) (onStore step') := by
  intro l l' h
  obtain ⟨n, rfl, hn⟩ := h.lifted
  have hlift : step (r.lift n l').store = _ := hstep n l'.store
  refine ⟨_, _, _, _, rfl, rfl, by rw [hlift], ⟨n, ?_, ?_⟩, h.setup, h.files, ?_, ?_, ?_⟩
  · show ({ r.lift n l' with store := (step (r.lift n l').store).2 } : Live) = _
    rw [hlift]
    rfl
  · show ∀ i, r.number ((step' l'.store).2.reloads + (i + 1)) = n + (i + 1)
    rwa [hreloads]
  · exact (hfixed l'.store).trans h.hasFixed
  · exact Nat.le_trans h.started (Nat.le_of_eq (hreloads l'.store).symm)
  · show r.isOrderly → (step' l'.store).2.publishedReload ≤ (step' l'.store).2.reloads
    rw [hreloads]
    exact fun ho => horderly ho _ h.started (h.orderly ho)

theorem coupled_record (entry : LogEntry) :
    Coupled (r.Relates k) Eq (record entry) (record entry) :=
  coupled_modify (fun _ _ => rfl) (fun _ => rfl) (fun _ => id) fun _ => rfl

theorem coupled_keep (built : Snapshot) :
    Coupled (r.Relates k) Eq (modify fun l => { l with store := l.store.keep built })
      (modify fun l => { l with store := l.store.keep built }) := by
  have hstep : Coupled (r.Relates k) Eq (onStore fun s => ((), s.keep built))
      (onStore fun s => ((), s.keep built)) :=
    coupled_onStore (fun n s => by simp [Store.keep_renumber]) (fun s => by simp)
      (fun s => by simp) fun _ s _ hle => by simpa using hle
  exact hstep

theorem coupled_dismiss (number : Nat) :
    Coupled (r.Relates k) Eq (dismiss number) (dismiss number) :=
  coupled_modify (fun _ _ => rfl) (fun _ => rfl) (fun _ => id) fun _ => rfl

/-- Two contexts that run side by side may run as one. -/
theorem composable :
    IsComposable fun (α : Type) (x : StateM Live α) => Coupled (r.Relates k) Eq x x where
  pure _ := .pure rfl
  bind hx hf := hx.bind fun a _ hab => hab ▸ hf a

/-! ### What hooks and listeners do -/

section Writing

variable {write : Write}
  (hwrite : ∀ changes, Coupled (r.Relates k) Eq (write changes) (write changes))
include hwrite

theorem coupled_atHook : Coupled (r.Relates k) Eq (atHook write) (atHook write) := by
  unfold atHook
  refine Coupled.get.bind fun l l' h => ?_
  rw [h.armed]
  split
  · exact .pure rfl
  · refine Coupled.bind (coupled_modify (fun _ _ => rfl) (fun _ => rfl)
      (fun _ => id) fun _ => rfl) fun _ _ _ => (hwrite _).bind ?_
    rintro outcome _ rfl
    cases outcome with
    | ok event => exact (coupled_record _).bind fun _ _ _ => .pure rfl
    | error error => exact .pure rfl

/-- Resolvers do alike, as hooks do. -/
theorem coupled_evaluate (l : Live) (x : Resolver (StateM Live))
    (hx : (l.view write).evaluator.Knows x) (expression : String) (scope : Scope) :
    Coupled (r.Relates k) Eq (x.evaluate expression scope) (x.evaluate expression scope) := by
  obtain ⟨registration, -, rfl⟩ := List.mem_map.1 (Evaluator.knows_ofResolvers hx)
  cases registration with
  | function f => exact .pure rfl
  | files => exact .pure rfl
  | hook id => exact (coupled_atHook hwrite).bind fun _ _ h => .pure (h ▸ rfl)

theorem coupled_getValueBy (key : String) :
    Coupled (r.Relates k) Eq (getValueBy write key) (getValueBy write key) := by
  unfold getValueBy
  refine Coupled.get.bind fun l l' h => ?_
  rw [h.view, h.published]
  exact (l'.view write).ends_getValue composable (coupled_evaluate hwrite l') _ key

theorem coupled_getBy (key : String) :
    Coupled (r.Relates k) Eq (getBy write key) (getBy write key) := by
  unfold getBy
  refine Coupled.get.bind fun l l' h => ?_
  rw [h.view, h.published]
  exact (l'.view write).ends_get composable (coupled_evaluate hwrite l') _ key

theorem coupled_snapshotBy :
    Coupled (r.Relates k) Eq (snapshotBy write) (snapshotBy write) := by
  unfold snapshotBy
  refine Coupled.get.bind fun l l' h => ?_
  rw [h.view]
  unfold Store.readSnapshot
  have hpublished : Coupled (r.Relates k) Eq (do return (← get).store.published)
      (do return (← get).store.published) := Coupled.get.bind fun _ _ h => .pure h.published
  have hcached : Coupled (r.Relates k) Eq (do return (← get).store.cached)
      (do return (← get).store.cached) := Coupled.get.bind fun _ _ h => .pure h.cached
  refine hpublished.bind ?_
  rintro set _ rfl
  refine hcached.bind ?_
  rintro cached _ rfl
  split
  · exact .pure rfl
  · refine ((l'.view write).ends_build composable (coupled_evaluate hwrite l') set).bind ?_
    rintro built _ rfl
    exact (coupled_keep built).bind fun _ _ _ => .pure rfl

theorem coupled_answer (number : Nat) :
    Coupled (r.Relates k) Eq (answer write number) (answer write number) := by
  unfold answer
  refine Coupled.get.bind fun l l' h => ?_
  rw [h.answers]
  split
  · exact .pure rfl
  · refine Coupled.bind (coupled_modify (fun _ _ => rfl) (fun _ => rfl)
      (fun _ => id) fun _ => rfl) fun _ _ _ => ?_
    exact (hwrite _).bind fun _ _ _ => .pure rfl

theorem coupled_call (event : ChangeEvent) (listener : Listener) :
    Coupled (r.Relates k) Eq (call write event listener) (call write event listener) := by
  unfold call
  refine (composable.mapM (fun key => ?_) _).bind ?_
  · exact (coupled_getBy hwrite key).bind fun _ _ h => .pure (h ▸ rfl)
  · rintro read _ rfl
    refine (coupled_record _).bind fun _ _ _ => ?_
    split
    · exact (coupled_dismiss _).bind fun _ _ _ => coupled_answer hwrite _
    · exact coupled_answer hwrite _

theorem coupled_announce (event : ChangeEvent) :
    Coupled (r.Relates k) Eq (announce write event) (announce write event) := by
  unfold announce
  split
  · exact .pure rfl
  · refine Coupled.get.bind fun l l' h => ?_
    rw [h.listeners]
    exact .forM (fun listener => coupled_call hwrite event listener) l'.listeners

/-- Steps that are coupled stay so when they are told of. -/
theorem coupled_announced {step step' : Store → Result ChangeEvent × Store}
    (h : Coupled (r.Relates k) Eq (onStore step) (onStore step')) :
    Coupled (r.Relates k) Eq (announced write step) (announced write step') := by
  unfold announced
  refine h.bind ?_
  rintro outcome _ rfl
  cases outcome with
  | ok event => exact (coupled_announce hwrite event).bind fun _ _ _ => .pure rfl
  | error error => exact .pure rfl

end Writing

/-! ### Changes -/

theorem coupled_commitStep (v : View Id) (changes : List Change) :
    Coupled (r.Relates k) Eq (onStore (Store.commit v changes))
      (onStore (Store.commit v changes)) := by
  refine coupled_onStore (fun n s => ?_) (Store.reloads_commit v changes) (fun s => ?_)
    fun _ s _ hle => ?_
  · rw [Store.commit_renumber, Store.publishedReload_commit]
  · exact Store.isEmpty_fixed_commit v s changes
  · rwa [Store.publishedReload_commit]

theorem coupled_commitWithin (fuel : Nat) (changes : List Change) :
    Coupled (r.Relates k) Eq (commitWithin fuel changes) (commitWithin fuel changes) := by
  induction fuel generalizing changes with
  | zero =>
    unfold commitWithin
    refine Coupled.get.bind fun l l' h => ?_
    rw [h.quiet]
    exact coupled_commitStep _ changes
  | succ fuel ih =>
    unfold commitWithin
    refine Coupled.get.bind fun l l' h => ?_
    rw [h.quiet]
    exact coupled_announced ih (coupled_commitStep _ changes)

theorem coupled_commit (changes : List Change) :
    Coupled (r.Relates k) Eq (commit changes) (commit changes) := by
  unfold commit
  refine Coupled.get.bind fun l l' h => ?_
  obtain ⟨n, rfl, -⟩ := h.lifted
  exact coupled_commitWithin _ changes

/-! ### Reloads -/

theorem coupled_finishReload {number : Nat} (hnumber : r.isOrderly → number ≤ k)
    (loaded : Loaded) :
    Coupled (r.Relates k) Eq (finishReload (r.number number) loaded)
      (finishReload number loaded) := by
  unfold finishReload
  refine Coupled.get.bind fun l l' h => ?_
  rw [h.quiet, h.providers, h.setup]
  refine coupled_announced coupled_commit
    (coupled_onStore (fun n s => ?_) (fun s => ?_) (fun s => ?_) fun ho s hk hle => ?_)
  · exact Store.finishReload_renumber _ s n r.lt_iff r.alike.length_eq number loaded
  · exact Store.reloads_finishReload _ _ number loaded s
  · exact Store.isEmpty_fixed_finishReload _ s _ number loaded
  · rcases Store.finishReload_cases l'.quiet r.setup.providers number loaded s with
      hf | ⟨-, hf⟩ | ⟨event, -, hf, -⟩
    · rwa [hf]
    · rw [hf]
      simpa using hle
    · rw [hf]
      simpa using Nat.le_trans (hnumber ho) hk

theorem Relates.startReload (h : r.Relates k l l') :
    l.store.startReload.1 = r.number l'.store.startReload.1 ∧ k < l'.store.startReload.1 ∧
      r.Relates l'.store.startReload.1 { l with store := l.store.startReload.2 }
        { l' with store := l'.store.startReload.2 } := by
  obtain ⟨n, rfl, hn⟩ := h.lifted
  refine ⟨(hn 0).symm, Nat.lt_succ_of_le h.started, ⟨n + 1, rfl, fun i => ?_⟩, h.setup, h.files,
    h.hasFixed, Nat.le_refl _, fun ho => Nat.le_succ_of_le (h.orderly ho)⟩
  show r.number (l'.store.reloads + 1 + (i + 1)) = _
  have hnext := hn (i + 1)
  rw [Nat.add_assoc, Nat.add_comm 1, hnext]
  omega

/-- What has been loaded is the same, so the reload ends alike. -/
theorem coupled_load {number : Nat} (hnumber : number ≤ k) :
    Coupled (r.Relates k) Eq
      (do let l ← get; finishReload (r.number number) (l.setup.load (r.number number) l.files))
      (do let l ← get; finishReload number (l.setup.load number l.files)) := by
  refine Coupled.get.bind fun l l' h => ?_
  have hload : l.setup.load (r.number number) l.files = l'.setup.load number l'.files := by
    obtain ⟨n, rfl, -⟩ := h.lifted
    show Provider.loadAll r.providers l'.setup.timeout (r.number number) l'.files = _
    unfold Setup.load
    rw [h.setup]
    exact Provider.loadAll_renumbered r.alike _ number _
  rw [hload]
  exact coupled_finishReload (fun _ => hnumber) _

end Renumbering

namespace Live

/-- What a load does that may ask for a reload; without fuel it asks for none. -/
def nestedWithin : Nat → Nat → Provider → StateM Live Unit
  | 0, _, _ => pure ()
  | fuel + 1, number, p => do
    if number ∈ p.nested then record (.nestedReload (← reloadWithin fuel))

theorem forM_nestedWithin_zero (number : Nat) (providers : List Provider) :
    providers.forM (nestedWithin 0 number) = pure () := by
  induction providers with
  | nil => rfl
  | cons p rest ih =>
    show (nestedWithin 0 number p >>= fun _ => rest.forM (nestedWithin 0 number)) = _
    rw [ih]
    rfl

theorem get_forM_nestedWithin_zero {α : Type} (number : Nat) (f : Live → StateM Live α) :
    (do
      (← get).setup.providers.forM (nestedWithin 0 number)
      let l ← get
      f l) = get >>= f := by
  simp only [forM_nestedWithin_zero]
  rfl

theorem reloadWithin_eq (fuel : Nat) :
    reloadWithin fuel = (do
      let number ← onStore Store.startReload
      (← get).setup.providers.forM (nestedWithin fuel number)
      let l ← get
      finishReload number (l.setup.load number l.files)) := by
  cases fuel with
  | zero =>
    have hzero : reloadWithin 0 = (do
        let number ← onStore Store.startReload
        let l ← get
        finishReload number (l.setup.load number l.files)) := by
      unfold reloadWithin
      rfl
    rw [hzero]
    refine bind_congr fun number => (get_forM_nestedWithin_zero number _).symm
  | succ fuel =>
    rw [reloadWithin]
    rfl

theorem nestedWithin_of_notMem {fuel number : Nat} {p : Provider} (h : number ∉ p.nested) :
    nestedWithin fuel number p = pure () := by
  cases fuel with
  | zero => rfl
  | succ fuel => rw [nestedWithin, if_neg h]

theorem nestedWithin_of_mem {fuel number : Nat} {p : Provider} (h : number ∈ p.nested) :
    nestedWithin (fuel + 1) number p = (do record (.nestedReload (← reloadWithin fuel))) := by
  rw [nestedWithin, if_pos h]

end Live

/-- Fewer numbers of a list come from `c` on than from `a` on if it has one in between. -/
theorem countP_lt_of_mem {xs : List Nat} {a b c : Nat} (hb : b ∈ xs) (hab : a ≤ b) (hbc : b < c) :
    xs.countP (c ≤ ·) < xs.countP (a ≤ ·) := by
  have hwithin : xs.countP (c ≤ ·) = (xs.filter (a ≤ ·)).countP (c ≤ ·) := by
    rw [List.countP_filter]
    refine List.countP_congr fun x _ => ?_
    simp only [decide_eq_true_eq, Bool.and_eq_true]
    omega
  have hmem : b ∈ xs.filter (a ≤ ·) := List.mem_filter.2 ⟨hb, decide_eq_true hab⟩
  have hnot : decide (c ≤ b) = false := decide_eq_false (Nat.not_le_of_lt hbc)
  rw [hwithin, List.countP_eq_length_filter (l := xs)]
  exact List.countP_lt_length_iff.2 ⟨b, hmem, hnot⟩

namespace Renumbering

variable {r : Renumbering} {k : Nat}

open Live

theorem coupled_reloadWithin_of_nested {fuel fuel' : Nat}
    (hnested : ∀ number, k < number → ∀ p ∈ r.providers, ∀ p' ∈ r.setup.providers,
      p.Renumbered r.number p' →
      Coupled (r.Relates number) Eq (nestedWithin fuel (r.number number) p)
        (nestedWithin fuel' number p')) :
    Coupled (r.Relates k) Eq (reloadWithin fuel) (reloadWithin fuel') := by
  have hrest (number : Nat) (hlt : k < number) : Coupled (r.Relates number) Eq
      (do
        (← get).setup.providers.forM (nestedWithin fuel (r.number number))
        let l ← get
        finishReload (r.number number) (l.setup.load (r.number number) l.files))
      (do
        (← get).setup.providers.forM (nestedWithin fuel' number)
        let l ← get
        finishReload number (l.setup.load number l.files)) := by
    refine Coupled.get.bind fun l l' h => ?_
    rw [h.providers, h.setup]
    refine Coupled.bind (.forM_of_forall₂ r.alike (hnested number hlt)) fun _ _ _ => ?_
    exact coupled_load (Nat.le_refl _)
  intro l l' h
  obtain ⟨hnumber, hlt, hstarted⟩ := h.startReload
  obtain ⟨a, b, t, t', hrun, hrun', hab, ht⟩ := hrest _ hlt _ _ hstarted
  refine ⟨a, b, t, t', ?_, ?_, hab, ht.mono (Nat.le_of_lt hlt)⟩
  · rw [reloadWithin_eq, StateT.run_bind, onStore_run, pure_bind, hnumber]
    exact hrun
  · rw [reloadWithin_eq, StateT.run_bind, onStore_run, pure_bind]
    exact hrun'

/-- Reloads end alike if the fuel of each counts the loads still to come that ask for another. -/
theorem coupled_reloadWithin {fuel fuel' : Nat}
    (hfuel : (r.providers.flatMap (·.nested)).countP (r.number (k + 1) ≤ ·) ≤ fuel)
    (hfuel' : (r.setup.providers.flatMap (·.nested)).countP (k + 1 ≤ ·) ≤ fuel') :
    Coupled (r.Relates k) Eq (reloadWithin fuel) (reloadWithin fuel') := by
  induction fuel using Nat.strongRecOn generalizing fuel' k with
  | ind fuel ih =>
    refine coupled_reloadWithin_of_nested fun number hlt p hp p' hp' hpp => ?_
    by_cases hmem : r.number number ∈ p.nested
    · have hmem' := (hpp.nested number).2 hmem
      have hin : r.number number ∈ r.providers.flatMap (·.nested) := List.mem_flatMap_of_mem hp hmem
      have hin' : number ∈ r.setup.providers.flatMap (·.nested) :=
        List.mem_flatMap_of_mem hp' hmem'
      -- This load is no longer to come for those within it, so they need less fuel.
      have hle : k + 1 ≤ number := hlt
      have hless := countP_lt_of_mem hin (r.le_of_le hle) (r.lt_succ number)
      have hless' := countP_lt_of_mem hin' hle (Nat.lt_add_one number)
      obtain ⟨rest, rfl⟩ : ∃ rest, fuel = rest + 1 := ⟨fuel - 1, by omega⟩
      obtain ⟨rest', rfl⟩ : ∃ rest', fuel' = rest' + 1 := ⟨fuel' - 1, by omega⟩
      rw [nestedWithin_of_mem hmem, nestedWithin_of_mem hmem']
      refine (ih rest (Nat.lt_succ_self rest) (by omega) (by omega)).bind ?_
      rintro outcome _ rfl
      exact coupled_record _
    · rw [nestedWithin_of_notMem hmem, nestedWithin_of_notMem (mt (hpp.nested number).1 hmem)]
      exact .pure rfl

theorem coupled_reloadWithin_reload {fuel : Nat}
    (hfuel : (r.providers.flatMap (·.nested)).countP (r.number (k + 1) ≤ ·) ≤ fuel) :
    Coupled (r.Relates k) Eq (reloadWithin fuel) reload := by
  intro l l' h
  unfold reload
  rw [StateT.run_bind, StateT.run_get, pure_bind, h.setup]
  exact coupled_reloadWithin hfuel List.countP_le_length l l' h

theorem coupled_reload : Coupled (r.Relates k) Eq reload reload := by
  intro l l' h
  have hwithin := coupled_reloadWithin_reload (r := r) (k := k) List.countP_le_length l l' h
  rw [← h.providers] at hwithin
  exact hwithin

theorem coupled_refresh : Coupled (r.Relates k) Eq refresh refresh :=
  coupled_onStore (fun _ _ => rfl) (fun _ => rfl) (fun _ => rfl) fun _ _ _ hle => hle

/-! ### Calls -/

theorem coupled_getValue (key : String) :
    Coupled (r.Relates k) Eq (getValue key) (getValue key) :=
  coupled_getValueBy coupled_commit key

theorem coupled_read (key : String) : Coupled (r.Relates k) Eq (read key) (read key) :=
  coupled_getBy coupled_commit key

theorem coupled_dismissLabel (label : String) :
    Coupled (r.Relates k) Eq (dismissLabel label) (dismissLabel label) := by
  unfold dismissLabel
  refine Coupled.get.bind fun l l' h => ?_
  rw [h.listeners]
  split
  · exact .pure rfl
  · exact (coupled_dismiss _).bind fun _ _ _ => .pure rfl

theorem coupled_listen (label : String) (reads : List String) (leaves : Bool)
    (answer : Option Change) :
    Coupled (r.Relates k) Eq (listen label reads leaves answer)
      (listen label reads leaves answer) :=
  coupled_modify (fun _ _ => rfl) (fun _ => rfl) (fun _ => id) fun _ => rfl

theorem coupled_arm (changes : List Change) :
    Coupled (r.Relates k) Eq (arm changes) (arm changes) :=
  coupled_modify (fun _ _ => rfl) (fun _ => rfl) (fun _ => id) fun _ => rfl

theorem coupled_edit (w : Writable) : Coupled (r.Relates k) Eq (edit w) (edit w) := by
  have hstep : Coupled (r.Relates k) Eq (onStore fun s => ((), s.edited w))
      (onStore fun s => ((), s.edited w)) :=
    coupled_onStore (fun _ _ => rfl) (fun _ => rfl) (fun s => by simp [Store.edited])
      fun _ _ _ hle => hle
  exact hstep

end Renumbering

end LayeredConfig
