import LayeredConfig.Proofs.Hiding.Snapshots
import LayeredConfig.Proofs.Snapshot.Difference

/-! # Steps of stores, one of which hides keys

Two stores may differ in nothing but the snapshots that they keep, which are of one set through two
views, one of which hides some keys of the other. Every step answers on the one side what it answers
on the other, with events that leave out the changes of hidden keys (`between_without`), and leaves
such stores behind. What a commit writes, and what a reload publishes, does not depend on
snapshots. -/

namespace LayeredConfig

variable {hidden : String → Bool} {v v' : View Id}

/-! ### Events -/

namespace ChangeEvent

/-- The event without the changes of hidden keys. -/
def without (hidden : String → Bool) (e : ChangeEvent) : ChangeEvent :=
  { e with changes := e.changes.filter fun c => !hidden c.key }

/-- Where nothing has changed, nothing is left out. -/
theorem isEmpty_without {e : ChangeEvent} (h : e.isEmpty = true) :
    (e.without hidden).isEmpty = true := by
  have hnil : e.changes = [] := List.isEmpty_iff.1 h
  simp [isEmpty, without, hnil]

theorem keysOf_without (hidden : String → Bool) (old new : Properties) :
    keysOf (old.without hidden) (new.without hidden) =
      (keysOf old new).filter fun key => !hidden key := by
  unfold keysOf KeyMap.toList
  rw [← KeyMap.keys_without]
  refine congrArg KeyMap.keys (KeyMap.ext_get? fun key => ?_)
  rw [KeyMap.get?_insertAll, KeyMap.get?_without (new.insertAll _), KeyMap.get?_insertAll,
    KeyMap.lookup_reverse_entries, KeyMap.lookup_reverse_entries, KeyMap.get?_without,
    KeyMap.get?_without]
  split <;> rfl

/-- Between snapshots that leave out some keys there are the changes of the other keys. -/
theorem between_without {old new old' new' : Snapshot} (hversion : old'.version = old.version)
    (hvalues : old'.values = old.values.without hidden) (hversion' : new'.version = new.version)
    (hvalues' : new'.values = new.values.without hidden) :
    between old' new' = (between old new).without hidden := by
  have hget : ∀ key, hidden key = false → old'.get? key = old.get? key ∧
      new'.get? key = new.get? key := by
    intro key hkey
    unfold Snapshot.get?
    rw [hvalues, hvalues', KeyMap.get?_without, KeyMap.get?_without, hkey]
    exact ⟨rfl, rfl⟩
  have hchanges : (keysOf old'.values new'.values).filterMap
      (fun key => KeyChange.between key (old'.get? key) (new'.get? key)) =
      ((keysOf old.values new.values).filterMap fun key =>
        KeyChange.between key (old.get? key) (new.get? key)).filter fun c => !hidden c.key := by
    rw [hvalues, hvalues', keysOf_without, List.filterMap_filter, List.filter_filterMap]
    refine congrArg (List.filterMap · _) (funext fun key => ?_)
    have hkeeps : ∀ c, KeyChange.between key (old.get? key) (new.get? key) = some c →
        c.key = key := fun c hc => (KeyChange.of_between hc).1
    cases hkey : hidden key with
    | true =>
      refine (Option.filter_eq_none_iff.2 fun c hc => ?_).symm
      rw [hkeeps c hc, hkey]
      exact Bool.false_ne_true
    | false =>
      rw [(hget key hkey).1, (hget key hkey).2]
      cases hchange : KeyChange.between key (old.get? key) (new.get? key) with
      | none => rfl
      | some c =>
        have hstays : (!hidden c.key) = true := by simp [hkeeps c hchange, hkey]
        rw [Option.filter_some, hstays]
        rfl
  unfold between without
  rw [hversion, hversion', hchanges]

end ChangeEvent

/-! ### Stores -/

/-- Snapshots of one set through two views. -/
def SameBuild (v v' : View Id) (whole part : Snapshot) : Prop :=
  ∃ set, whole = (v.build set).run ∧ part = (v'.build set).run

namespace SameBuild

theorem version {whole part : Snapshot} (h : SameBuild v v' whole part) :
    part.version = whole.version := by
  obtain ⟨set, rfl, rfl⟩ := h
  rw [View.version_build, View.version_build]

/-- What changes between snapshots is told through the one view as through the other, but for
hidden keys. -/
theorem between (h : v.Veils hidden v') {old old' new new' : Snapshot}
    (hold : SameBuild v v' old old') (hnew : SameBuild v v' new new') :
    ChangeEvent.between old' new' = (ChangeEvent.between old new).without hidden := by
  have hversion := hold.version
  have hversion' := hnew.version
  obtain ⟨set, rfl, rfl⟩ := hold
  obtain ⟨set', rfl, rfl⟩ := hnew
  exact ChangeEvent.between_without hversion (h.values_build set) hversion' (h.values_build set')

end SameBuild

/-- Stores that are alike but for the snapshots that they keep, which are of one set through two
views. -/
structure Store.Alongside (v v' : View Id) (s s' : Store) : Prop where
  cached : Option.Rel (SameBuild v v') s.cached s'.cached
  rest : s' = { s with cached := s'.cached }

namespace Store.Alongside

variable {s s' : Store} (h : s.Alongside v v' s')
include h

theorem fixed : s'.fixed = s.fixed := by rw [h.rest]

theorem writable : s'.writable = s.writable := by rw [h.rest]

theorem published : s'.published = s.published := by rw [h.rest]

theorem reloads : s'.reloads = s.reloads := by rw [h.rest]

theorem publishedReload : s'.publishedReload = s.publishedReload := by rw [h.rest]

theorem version : s'.version = s.version := congrArg SourceSet.version h.published

/-! ### Snapshots -/

theorem current? : Option.Rel (SameBuild v v') s.current? s'.current? := by
  have hcached := h.cached
  unfold Store.current?
  rw [h.published]
  generalize s.cached = a, s'.cached = b at hcached ⊢
  cases hcached with
  | none => exact .none
  | @some c c' hcc' =>
    rw [Option.filter_some, Option.filter_some, hcc'.version]
    split
    · exact .some hcc'
    · exact .none

theorem snapshot : SameBuild v v' (s.snapshot v) (s'.snapshot v') := by
  have hcurrent := h.current?
  unfold Store.snapshot
  rw [h.published]
  generalize s.current? = a, s'.current? = b at hcurrent ⊢
  cases hcurrent with
  | none => exact ⟨_, rfl, rfl⟩
  | some hcc' => exact hcc'

theorem keep {built built' : Snapshot} (hbuilt : SameBuild v v' built built') :
    (s.keep built).Alongside v v' (s'.keep built') := by
  have hkept : Store.Alongside v v' { s with cached := some built }
      { s' with cached := some built' } := ⟨.some hbuilt, by rw [h.rest]⟩
  have hcached := h.cached
  unfold Store.keep
  rw [hbuilt.version]
  generalize s.cached = a, s'.cached = b at hcached ⊢
  cases hcached with
  | none => exact hkept
  | some hcc' =>
    dsimp only
    rw [hcc'.version]
    split
    · exact h
    · exact hkept

theorem seen : (s.seen v).Alongside v v' (s'.seen v') := by
  rw [seen_eq_keep, seen_eq_keep, h.published]
  exact h.keep ⟨_, rfl, rfl⟩

/-! ### Changes -/

theorem publish (set : Nat → SourceSet) : (s.publish set).Alongside v v' (s'.publish set) := by
  refine ⟨.none, ?_⟩
  rw [h.rest]
  rfl

theorem refresh : s.refresh.Alongside v v' s'.refresh := by
  unfold Store.refresh
  rw [h.published]
  exact h.publish _

theorem startReload : s'.startReload.1 = s.startReload.1 ∧
    s.startReload.2.Alongside v v' s'.startReload.2 := by
  refine ⟨congrArg Nat.succ h.reloads, h.cached, ?_⟩
  rw [h.rest]
  rfl

theorem replaceWritable (old new : Writable) :
    (s.replaceWritable old new).Alongside v v' (s'.replaceWritable old new) := by
  refine ⟨.none, ?_⟩
  rw [h.rest]
  rfl

theorem adopt (number : Nat) (loaded : Loaded) :
    (s.adopt number loaded).Alongside v v' (s'.adopt number loaded) := by
  refine ⟨.none, ?_⟩
  rw [h.rest]
  rfl

/-- An edit leaves what is kept as it is. -/
theorem edited (w : Writable) : (s.edited w).Alongside v v' (s'.edited w) := by
  refine ⟨h.cached, ?_⟩
  rw [h.rest]
  rfl

/-- What a commit tells of is restricted. -/
theorem commit (hv : v.Veils hidden v') (changes : List Change) :
    (s'.commit v' changes).1 = (s.commit v changes).1.map (·.without hidden) ∧
      (s.commit v changes).2.Alongside v v' (s'.commit v' changes).2 := by
  have hwritable := h.writable
  cases hw : s.writable with
  | none =>
    unfold Store.commit
    rw [hwritable, hw]
    exact ⟨rfl, h⟩
  | some w =>
    have hwritten : s'.written w changes = s.written w changes := by
      unfold Store.written
      rw [h.version]
    have hreplaced := h.seen.replaceWritable w (s.written w changes)
    rw [commit_of_writable hw, commit_of_writable (hwritable.trans hw), hwritten]
    exact ⟨congrArg Except.ok (SameBuild.between hv h.snapshot hreplaced.snapshot), hreplaced.seen⟩

/-- What the end of a reload tells of is restricted, whatever has been loaded. -/
theorem finishReload (hv : v.Veils hidden v') (providers : List Provider) (number : Nat)
    (loaded : Loaded) :
    (s'.finishReload v' providers number loaded).1 =
        (s.finishReload v providers number loaded).1.map (·.without hidden) ∧
      (s.finishReload v providers number loaded).2.Alongside v v'
        (s'.finishReload v' providers number loaded).2 := by
  unfold Store.finishReload
  rw [h.fixed, h.publishedReload]
  split
  · exact ⟨rfl, h⟩
  · split
    · exact ⟨congrArg Except.ok (SameBuild.between hv h.snapshot h.snapshot), h.seen⟩
    · have hadopted := h.seen.adopt number loaded
      exact ⟨congrArg Except.ok (SameBuild.between hv h.snapshot hadopted.snapshot), hadopted.seen⟩

end Store.Alongside

end LayeredConfig
