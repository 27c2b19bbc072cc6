import LayeredConfig.Proofs.Secrecy.Concealment
import LayeredConfig.Proofs.Store.Steps

/-! # Steps of stores that are alike

Two stores that are alike but for the texts of a key, read through filters that conceal it, answer
every step alike and stay alike: the events of commits and reloads are between snapshots, and these
are the same on both sides. -/

namespace LayeredConfig

open List (Forall₂)

variable {k : String} {v : View Id}

/-- Stores that differ at most in the texts of one key. What is cached is the same. -/
structure Store.AlikeBut (k : String) (s t : Store) : Prop where
  fixed : Forall₂ (Source.AlikeBut k) s.fixed t.fixed
  writable : Option.Rel (Writable.AlikeBut k) s.writable t.writable
  published : s.published.AlikeBut k t.published
  cached : s.cached = t.cached
  reloads : s.reloads = t.reloads
  publishedReload : s.publishedReload = t.publishedReload

namespace Store.AlikeBut

variable {s t : Store}

theorem initial (hk : k ≠ ordinalKey) {ss ts : List Source}
    (hst : Forall₂ (Source.AlikeBut k) ss ts) {w x : Option Writable}
    (hwx : Option.Rel (Writable.AlikeBut k) w x) {a b : Loaded} (hab : a.AlikeBut k b) :
    (Store.initial ss w a).AlikeBut k (.initial ts x b) where
  fixed := hst
  writable := hwx
  published := SourceSet.alikeBut_ofSources hk (List.rel_append hst hab.sources) 1
  cached := rfl
  reloads := rfl
  publishedReload := rfl

theorem version (h : s.AlikeBut k t) : s.version = t.version := h.published.version

/-! ### Snapshots -/

theorem current? (h : s.AlikeBut k t) : s.current? = t.current? := by
  unfold Store.current?
  rw [h.cached, h.published.version]

theorem snapshot (hv : v.pipeline.Conceals k) (h : s.AlikeBut k t) :
    s.snapshot v = t.snapshot v := by
  unfold Store.snapshot
  rw [h.current?, View.build_eq hv h.published]

theorem keep (h : s.AlikeBut k t) (built : Snapshot) :
    (s.keep built).AlikeBut k (t.keep built) := by
  unfold Store.keep
  rw [← h.cached]
  have hkept : Store.AlikeBut k { s with cached := some built } { t with cached := some built } :=
    ⟨h.fixed, h.writable, h.published, rfl, h.reloads, h.publishedReload⟩
  split
  · split
    · exact h
    · exact hkept
  · exact hkept

theorem seen (hv : v.pipeline.Conceals k) (h : s.AlikeBut k t) :
    (s.seen v).AlikeBut k (t.seen v) := by
  unfold Store.seen
  rw [h.current?, h.snapshot hv]
  split
  · exact h
  · exact h.keep _

/-! ### Changes -/

theorem publish (h : s.AlikeBut k t) {f g : Nat → SourceSet}
    (hfg : ∀ version, (f version).AlikeBut k (g version)) :
    (s.publish f).AlikeBut k (t.publish g) where
  fixed := h.fixed
  writable := h.writable
  published := by
    show (f (s.version + 1)).AlikeBut k (g (t.version + 1))
    rw [h.version]
    exact hfg _
  cached := rfl
  reloads := h.reloads
  publishedReload := h.publishedReload

theorem refresh (h : s.AlikeBut k t) : s.refresh.AlikeBut k t.refresh :=
  h.publish h.published.withVersion

theorem startReload (h : s.AlikeBut k t) :
    s.startReload.1 = t.startReload.1 ∧ s.startReload.2.AlikeBut k t.startReload.2 := by
  have hnumber : s.reloads + 1 = t.reloads + 1 := congrArg Nat.succ h.reloads
  exact ⟨hnumber, h.fixed, h.writable, h.published, h.cached, hnumber, h.publishedReload⟩

theorem replaceWritable (hk : k ≠ ordinalKey) (h : s.AlikeBut k t) {old old' new new' : Writable}
    (hold : old.AlikeBut k old') (hnew : new.AlikeBut k new') :
    (s.replaceWritable old new).AlikeBut k (t.replaceWritable old' new') := by
  have hset (version : Nat) := h.published.replacing hk old.id hnew.toSource version
  have hpublish : (s.publish (s.published.replacing old.id new.toSource)).AlikeBut k
      (t.publish (t.published.replacing old'.id new'.toSource)) := by
    rw [← hold.id]
    exact h.publish hset
  refine ⟨List.rel_map (fun a b hab => ?_) h.fixed, .some hnew, hpublish.published, rfl,
    hpublish.reloads, hpublish.publishedReload⟩
  rw [hab.id, hold.id]
  split
  · exact hnew.toSource
  · exact hab

/-- Sources are edited in place, with other texts of the key on the two sides. -/
theorem edited (h : s.AlikeBut k t) {w x : Writable} (hwx : w.AlikeBut k x) :
    (s.edited w).AlikeBut k (t.edited x) where
  fixed := by
    refine List.rel_map (fun a b hab => ?_) h.fixed
    rw [hab.id, hwx.id]
    split
    · exact hwx.toSource
    · exact hab
  writable := by
    have hwritable := h.writable
    show Option.Rel _ (s.writable.map _) (t.writable.map _)
    generalize s.writable = a, t.writable = b at hwritable
    cases hwritable with
    | none => exact .none
    | some hab =>
      refine .some ?_
      dsimp only
      rw [hab.id, hwx.id]
      split
      · exact hwx
      · exact hab
  published := h.published.edited hwx.toSource
  cached := h.cached
  reloads := h.reloads
  publishedReload := h.publishedReload

/-- A change is told by two snapshots, which are the same on both sides. -/
theorem between (hv : v.pipeline.Conceals k) (h : s.AlikeBut k t) (old : Snapshot) :
    (s.between v old).1 = (t.between v old).1 ∧
      (s.between v old).2.AlikeBut k (t.between v old).2 := by
  unfold Store.between
  rw [h.snapshot hv]
  exact ⟨rfl, h.seen hv⟩

theorem commit (hk : k ≠ ordinalKey) (hv : v.pipeline.Conceals k) (h : s.AlikeBut k t)
    {cs ds : List Change} (hcs : Forall₂ (Change.AlikeBut k) cs ds) :
    (s.commit v cs).1 = (t.commit v ds).1 ∧ (s.commit v cs).2.AlikeBut k (t.commit v ds).2 := by
  have hwritable := h.writable
  unfold Store.commit
  generalize s.writable = a, t.writable = b at hwritable ⊢
  cases hwritable with
  | none => exact ⟨rfl, h⟩
  | @some w x hwx =>
    have hwritten : (s.written w cs).AlikeBut k (t.written x ds) :=
      ⟨congrArg (fun n => Identity.copy (n + 1)) h.version, hwx.table.withChanges hcs⟩
    have hreplaced := (h.seen hv).replaceWritable hk hwx hwritten
    obtain ⟨hevent, hstore⟩ := hreplaced.between hv (s.snapshot v)
    rw [h.snapshot hv] at hevent hstore
    dsimp only
    rw [h.snapshot hv]
    exact ⟨congrArg Except.ok hevent, hstore⟩

theorem adopt (hk : k ≠ ordinalKey) (h : s.AlikeBut k t) (number : Nat) {a b : Loaded}
    (hab : a.AlikeBut k b) : (s.adopt number a).AlikeBut k (t.adopt number b) := by
  have hset (version : Nat) :=
    SourceSet.alikeBut_ofSources hk (List.rel_append h.fixed hab.sources) version
  have hpublish := h.publish hset
  exact ⟨hpublish.fixed, hpublish.writable, hpublish.published, rfl, hpublish.reloads, rfl⟩

theorem finishReload (hk : k ≠ ordinalKey) (hv : v.pipeline.Conceals k) (h : s.AlikeBut k t)
    {files files' : FileTree} {ps qs : List Provider}
    (hps : Forall₂ (Provider.AlikeBut k files files') ps qs) (number : Nat) {a b : Loaded}
    (hab : a.AlikeBut k b) :
    (s.finishReload v ps number a).1 = (t.finishReload v qs number b).1 ∧
      (s.finishReload v ps number a).2.AlikeBut k (t.finishReload v qs number b).2 := by
  unfold Store.finishReload
  rw [Provider.alikeBut_allFailed hps hab, isEmpty_eq_of_forall₂ h.fixed, hps.length_eq,
    h.publishedReload, h.snapshot hv]
  split
  · exact ⟨rfl, h⟩
  · split
    · exact ⟨rfl, h.seen hv⟩
    · obtain ⟨hevent, hstore⟩ := ((h.seen hv).adopt hk number hab).between hv (t.snapshot v)
      exact ⟨congrArg Except.ok hevent, hstore⟩

end Store.AlikeBut

end LayeredConfig
