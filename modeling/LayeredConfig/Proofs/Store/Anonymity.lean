import LayeredConfig.Proofs.SourceSet.Replacement
import LayeredConfig.Proofs.Store.Steps
import LayeredConfig.Proofs.View.Reading

/-! # Which object a source is

The identity of a source tells where a copy of it goes, and nothing that is read of a set depends on
it. Registering and sorting pass identities by (`anonymous_ofSources`), and sets of which the same
is left without them give the same to every view (`View.getValue_eq_of_anonymous`,
`View.build_eq_of_anonymous`). So stores that have published such sets are read alike
(`Store.ReadsLike.of_anonymous`). -/

namespace LayeredConfig

namespace Source

/-- The source without what makes it the object it is. -/
def anonymous (s : Source) : Source := { s with id := .object 0 }

/-- What takes the place of a source counts without its identity. -/
theorem anonymous_renewed_congr {a b : Source} (h : a.anonymous = b.anonymous) (s : Source)
    (old : Identity) : (s.renewed old a).anonymous = (s.renewed old b).anonymous := by
  unfold renewed
  split
  · exact h
  · rfl

end Source

/-- An entry without the identity of its source. -/
def Registered.anonymous (r : Registered) : Registered := { r with source := r.source.anonymous }

namespace SourceSet

variable {a b : SourceSet}

/-- The entries of a set without the identities of the sources. -/
def anonymous (set : SourceSet) : List Registered := set.entries.map Registered.anonymous

theorem anonymous_ofSources (sources : List Source) (version : Nat) :
    (ofSources sources version).anonymous =
      Order.sort Registered.notAbove
        ((distinctNames (sources.map Source.anonymous)).map Registered.of) := by
  have hnames : distinctNames (sources.map Source.anonymous) =
      (distinctNames sources).map Source.anonymous := distinctNames_map fun _ _ => rfl
  have hentries : ((distinctNames sources).map Source.anonymous).map Registered.of =
      ((distinctNames sources).map Registered.of).map Registered.anonymous := by
    rw [List.map_map, List.map_map]
    rfl
  rw [hnames, hentries, Order.sort_map]
  rfl

section Congruence

variable (h : a.anonymous = b.anonymous)
include h

theorem summary_congr : a.summary = b.summary := by
  have hsummary (set : SourceSet) :
      set.summary = set.anonymous.map fun r => (r.name, r.ordinal) := by
    unfold summary anonymous
    rw [List.map_map]
    rfl
  rw [hsummary, hsummary, h]

theorem lookup_congr (key : String) : a.lookup key = b.lookup key := by
  have hanswers (set : SourceSet) :
      set.answers key = set.anonymous.reverse.filterMap (·.lookup key) := by
    unfold answers anonymous
    rw [← List.map_reverse, List.filterMap_map]
    rfl
  unfold lookup
  rw [hanswers, hanswers, h]

theorem merge_congr : a.merge = b.merge := by
  have hmerge (set : SourceSet) : set.merge = LayeredConfig.merge set.anonymous := by
    unfold merge LayeredConfig.merge anonymous
    rw [List.foldl_map]
    rfl
  rw [hmerge, hmerge, h]

end Congruence

end SourceSet

namespace View

variable {m : Type → Type} {a b : SourceSet}

theorem lookup_eq_of_anonymous (v : View m) (h : a.anonymous = b.anonymous) :
    v.lookup a = v.lookup b := by
  funext key
  unfold lookup
  rw [SourceSet.lookup_congr h]

theorem visible_eq_of_anonymous (v : View m) (h : a.anonymous = b.anonymous) :
    v.visible a = v.visible b := by
  unfold visible
  rw [SourceSet.merge_congr h]

variable [Monad m]

theorem getValue_eq_of_anonymous (v : View m) (h : a.anonymous = b.anonymous) :
    v.getValue a = v.getValue b := getValue_congr (v.lookup_eq_of_anonymous h) rfl rfl

theorem get_eq_of_anonymous (v : View m) (h : a.anonymous = b.anonymous) : v.get a = v.get b :=
  get_congr (v.lookup_eq_of_anonymous h) rfl rfl

/-- The versions aside, snapshots are the same. -/
theorem build_eq_of_anonymous (v : View Id) (h : a.anonymous = b.anonymous) :
    (v.build a).run.values = (v.build b).run.values ∧
      (v.build a).run.metadata = (v.build b).run.metadata := by
  have hbuild : v.build (a.withVersion 0) = v.build (b.withVersion 0) :=
    build_congr (v.lookup_eq_of_anonymous h) rfl rfl (v.visible_eq_of_anonymous h) rfl
  have hvalues := congrArg (fun s : Id Snapshot => s.run.values) hbuild
  have hmetadata := congrArg (fun s : Id Snapshot => s.run.metadata) hbuild
  exact ⟨hvalues, hmetadata⟩

end View

namespace Store

/-- Whether two stores are read alike, versions aside, and hold the same in the source that is
written to. -/
structure ReadsLike (v : View Id) (s t : Store) : Prop where
  written : s.writable.map (·.table) = t.writable.map (·.table)
  sources : s.published.summary = t.published.summary
  value : ∀ key, (v.getValue s.published key).run = (v.getValue t.published key).run
  text : ∀ key, (v.get s.published key).run = (v.get t.published key).run
  values : (s.snapshot v).values = (t.snapshot v).values
  metadata : (s.snapshot v).metadata = (t.snapshot v).metadata

/-- Stores are read alike that have published the same without the identities, and that give
snapshots of it. -/
theorem ReadsLike.of_anonymous {v : View Id} {s t : Store}
    (hwritten : s.writable.map (·.table) = t.writable.map (·.table))
    (h : s.published.anonymous = t.published.anonymous)
    (hs : s.snapshot v = (v.build s.published).run)
    (ht : t.snapshot v = (v.build t.published).run) : s.ReadsLike v t where
  written := hwritten
  sources := SourceSet.summary_congr h
  value key := by rw [v.getValue_eq_of_anonymous h]
  text key := by rw [v.get_eq_of_anonymous h]
  values := by rw [hs, ht, (v.build_eq_of_anonymous h).1]
  metadata := by rw [hs, ht, (v.build_eq_of_anonymous h).2]

end Store

end LayeredConfig
