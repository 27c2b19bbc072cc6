import LayeredConfig.Proofs.SourceSet.Rebuilding

/-! # What is registered

An ordinal is resolved when its source is registered, and an edit in place does not register the
source again. A refresh publishes the entries as they are, and a reload registers all sources anew.
Where there are no providers both publish the fixed sources, whatever has happened before
(`Registers`, kept by `Registers.moves`). So a reload publishes what a refresh does if every entry
is current, that is if its source still has the ordinal it was registered with
(`Registers.published_reloadAlone`), and the same list of sources only then
(`Registers.isCurrent_of_summary_eq`). -/

namespace LayeredConfig

/-! ### Current entries -/

namespace Registered

/-- Whether the source still has the ordinal it was registered with. -/
def IsCurrent (r : Registered) : Prop := r.source.ordinal = r.ordinal

instance (r : Registered) : Decidable r.IsCurrent :=
  inferInstanceAs (Decidable (r.source.ordinal = r.ordinal))

theorem IsCurrent.of_source {r : Registered} (h : r.IsCurrent) : .of r.source = r :=
  congrArg (Registered.mk r.source) h

end Registered

namespace SourceSet

variable {set : SourceSet} {sources : List Source}

theorem perm_sources_ofSources (sources : List Source) (version : Nat) :
    ((ofSources sources version).entries.map (·.source)).Perm (distinctNames sources) := by
  have hsources : ((distinctNames sources).map Registered.of).map (·.source) =
      distinctNames sources := by
    rw [List.map_map]
    exact List.map_id' _
  have hperm : (ofSources sources version).entries.Perm ((distinctNames sources).map .of) :=
    Order.sort_perm _
  exact hsources ▸ hperm.map (·.source)

/-- Where the old source was, the new one is. -/
theorem perm_sources_replacing (set : SourceSet) (old : Identity) (new : Source) (version : Nat) :
    ((set.replacing old new version).entries.map (·.source)).Perm
      ((set.entries.map (·.source)).map fun s => s.renewed old new) := by
  have hsources : (set.entries.map fun r => if r.source.id = old then Registered.of new else r).map
      (·.source) = (set.entries.map (·.source)).map fun s => s.renewed old new := by
    rw [List.map_map, List.map_map]
    exact List.map_congr_left fun r _ => apply_ite Registered.source _ _ _
  rw [← hsources]
  exact (Order.sort_perm _).map _

theorem sources_edited (set : SourceSet) (source : Source) :
    (set.edited source).entries.map (·.source) =
      (set.entries.map (·.source)).map fun s => s.renewed source.id source := by
  unfold edited
  rw [List.map_map, List.map_map]
  exact List.map_congr_left fun r _ => apply_ite Registered.source _ _ _

section Sources

variable (hsources : (set.entries.map (·.source)).Perm (distinctNames sources))
include hsources

/-- A set of current entries is what registering its sources gives. -/
theorem ofSources_eq_of_isCurrent (hmade : set.IsMade) (h : ∀ r ∈ set.entries, r.IsCurrent)
    (version : Nat) : ofSources sources version = set.withVersion version := by
  have hentries : (set.entries.map (·.source)).map Registered.of = set.entries := by
    rw [List.map_map]
    exact (List.map_congr_left fun r hr => (h r hr).of_source).trans (List.map_id' _)
  have hperm : ((distinctNames sources).map Registered.of).Perm set.entries := by
    rw [← hentries]
    exact (hsources.map _).symm
  have hsort := Registered.sort_eq_of_perm hperm (nodup_names_registered sources)
  rw [Order.sort_eq_self hmade.pairwise_notAbove] at hsort
  unfold ofSources SourceSet.withVersion
  rw [hsort]

/-- Sources that are registered under the ordinals of a set's entries make these current. -/
theorem isCurrent_of_summary_eq {version : Nat}
    (h : (ofSources sources version).summary = set.summary) : ∀ r ∈ set.entries, r.IsCurrent := by
  intro r hr
  have hsource : r.source ∈ distinctNames sources :=
    hsources.mem_iff.1 (List.mem_map_of_mem hr)
  have hlisted : (r.name, r.ordinal) ∈ (ofSources sources version).summary :=
    h ▸ List.mem_map_of_mem hr
  obtain ⟨t, ht, heq⟩ := List.mem_map.1 hlisted
  obtain ⟨s, hs, rfl⟩ := List.mem_map.1 (Order.mem_sort.1 ht)
  obtain ⟨hname, hordinal⟩ := Prod.mk.inj heq
  have hnames : ((distinctNames sources).map (·.name)).Nodup :=
    List.pairwise_map.2 (pairwise_distinctNames sources)
  rw [List.inj_on_of_nodup_map hnames hs hsource hname] at hordinal
  exact hordinal

end Sources

end SourceSet

/-- Sources that take the place of others under their names keep which ones are dropped. -/
theorem perm_distinctNames_renewed {xs sources : List Source} {old : Identity} {new : Source}
    (h : xs.Perm (distinctNames sources)) (hname : ∀ s ∈ sources, s.id = old → s.name = new.name) :
    (xs.map fun s => s.renewed old new).Perm
      (distinctNames (sources.map fun s => s.renewed old new)) := by
  rw [distinctNames_map fun s hs => Source.name_renewed (hname s hs)]
  exact h.map _

namespace Store

variable {s t : Store} {w : Writable}

/-! ### Stores without providers -/

/-- A reload of a context without providers, from its beginning to its end. -/
def reloadAlone (v : View Id) (s : Store) : Result ChangeEvent × Store :=
  s.startReload.2.finishReload v [] s.startReload.1 ⟨[], 0⟩

/-- What may happen to the store of a context without providers: its reloads load nothing, readings
keep what they have built of any set, and sources that it holds are edited in place. -/
inductive MovesAlone : Store → Store → Prop
  | commit (v : View Id) (changes : List Change) (s : Store) : MovesAlone s (s.commit v changes).2
  | refresh (s : Store) : MovesAlone s s.refresh
  | start (s : Store) : MovesAlone s s.startReload.2
  | finish (v : View Id) {s : Store} {number : Nat} (h : number ≤ s.reloads) :
    MovesAlone s (s.finishReload v [] number ⟨[], 0⟩).2
  | keep (v : View Id) (set : SourceSet) (s : Store) : MovesAlone s (s.keep (v.build set).run)
  | edit {s : Store} {w : Writable} (h : s.KeepsName w) : MovesAlone s (s.edited w)

/-- A store in which the fixed sources are published, each under the ordinal it was registered with.
Whatever has the identity of the writable source has its name, copies are of versions that were
published, and so is the reload. -/
structure Registers (s : Store) : Prop where
  made : s.published.IsMade
  sources : (s.published.entries.map (·.source)).Perm (distinctNames s.fixed)
  named : ∀ w, s.writable = some w → ∀ u ∈ s.fixed, u.id = w.id → u.name = w.table.name
  copies : ∀ u ∈ s.fixed, ∀ n, u.id = .copy n → n ≤ s.version
  started : s.publishedReload ≤ s.reloads

namespace Registers

theorem initial {fixed : List Source} {writable : Option Writable}
    (hnamed : ∀ w, writable = some w → ∀ u ∈ fixed, u.id = w.id → u.name = w.table.name)
    (hcopies : ∀ u ∈ fixed, ∀ n, u.id ≠ .copy n) :
    Registers (.initial fixed writable ⟨[], 0⟩) where
  made := .ofSources _ _
  sources := by
    show ((SourceSet.ofSources (fixed ++ []) 1).entries.map (·.source)).Perm _
    rw [List.append_nil]
    exact SourceSet.perm_sources_ofSources fixed 1
  named := hnamed
  copies u hu n hid := absurd hid (hcopies u hu n)
  started := Nat.le_refl 0

/-- A step that leaves the sources alone. -/
theorem congr (h : s.Registers) (hmade : t.published.IsMade)
    (hentries : t.published.entries = s.published.entries) (hfixed : t.fixed = s.fixed)
    (hwritable : t.writable = s.writable) (hversion : s.version ≤ t.version)
    (hstarted : t.publishedReload ≤ t.reloads) : t.Registers where
  made := hmade
  sources := by rw [hentries, hfixed]; exact h.sources
  named := by rw [hwritable, hfixed]; exact h.named
  copies u hu n hid := Nat.le_trans (h.copies u (hfixed ▸ hu) n hid) hversion
  started := hstarted

theorem keep (h : s.Registers) (built : Snapshot) : (s.keep built).Registers :=
  h.congr (by rw [published_keep]; exact h.made) (by rw [published_keep]) (fixed_keep s built)
    (writable_keep s built) (Nat.le_of_eq (version_keep s built).symm)
    (by rw [publishedReload_keep, reloads_keep]; exact h.started)

theorem seen (h : s.Registers) (v : View Id) : (s.seen v).Registers := by
  rw [seen_eq_keep]
  exact h.keep _

theorem refresh (h : s.Registers) : s.refresh.Registers :=
  h.congr (h.made.withVersion _) rfl rfl rfl (Nat.le_succ _) h.started

theorem startReload (h : s.Registers) : s.startReload.2.Registers :=
  h.congr h.made rfl rfl rfl (Nat.le_refl _) (Nat.le_succ_of_le h.started)

/-- A copy takes the place of the writable source. -/
theorem replaceWritable (h : s.Registers) (hw : s.writable = some w) (changes : List Change) :
    (s.replaceWritable w (s.written w changes)).Registers where
  made := h.made.replacing _ _ _
  sources := (SourceSet.perm_sources_replacing _ _ _ _).trans
    (perm_distinctNames_renewed h.sources fun u hu hid => h.named w hw u hu hid)
  named w' hw' u hu hid := by
    cases hw'
    obtain ⟨t, ht, rfl⟩ := List.mem_map.1 hu
    split
    · rfl
    · rename_i hne
      rw [if_neg hne] at hid
      exact absurd (h.copies t ht _ hid) (Nat.not_succ_le_self _)
  copies u hu n hid := by
    rw [version_replaceWritable]
    obtain ⟨t, ht, rfl⟩ := List.mem_map.1 hu
    split at hid
    · cases hid
      exact Nat.le_refl _
    · exact Nat.le_succ_of_le (h.copies t ht n hid)
  started := h.started

theorem commit (h : s.Registers) (v : View Id) (changes : List Change) :
    (s.commit v changes).2.Registers := by
  cases hw : s.writable with
  | none =>
    unfold Store.commit
    rw [hw]
    exact h
  | some w =>
    have hseen := (h.seen v).replaceWritable ((writable_seen v s).trans hw) changes
    rw [written, version_seen, ← written] at hseen
    rw [commit_of_writable hw]
    exact hseen.seen v

theorem adopt (h : s.Registers) {number : Nat} (hnumber : number ≤ s.reloads) :
    (s.adopt number ⟨[], 0⟩).Registers where
  made := .ofSources _ _
  sources := by
    rw [published_adopt, List.append_nil, fixed_adopt]
    exact SourceSet.perm_sources_ofSources s.fixed _
  named := h.named
  copies u hu n hid := Nat.le_succ_of_le (h.copies u hu n hid)
  started := hnumber

theorem finishReload (h : s.Registers) (v : View Id) {number : Nat} (hnumber : number ≤ s.reloads) :
    (s.finishReload v [] number ⟨[], 0⟩).2.Registers := by
  rcases finishReload_cases v [] number ⟨[], 0⟩ s with hf | ⟨-, hf⟩ | ⟨event, -, hf, -⟩
  · rw [hf]
    exact h
  · rw [hf]
    exact h.seen v
  · rw [hf]
    exact ((h.seen v).adopt (by rwa [reloads_seen])).seen v

/-- A source that is edited in place stays the object it is. -/
theorem id_edited (u : Source) (w : Writable) :
    (if u.id = w.id then w.toSource else u).id = u.id := by
  split
  · rename_i hid
    exact hid.symm
  · rfl

theorem edited (h : s.Registers) (hname : s.KeepsName w) : (s.edited w).Registers where
  made := h.made.edited hname.published
  sources := by
    show ((s.published.edited w.toSource).entries.map (·.source)).Perm _
    rw [SourceSet.sources_edited]
    exact perm_distinctNames_renewed h.sources hname.fixed
  named w' hw' u hu hid := by
    obtain ⟨t, ht, rfl⟩ := List.mem_map.1 hu
    obtain ⟨current, hcurrent, rfl⟩ := Option.map_eq_some_iff.1 hw'
    rw [id_edited] at hid
    by_cases hedit : current.id = w.id
    · rw [if_pos hedit] at hid ⊢
      rw [if_pos hid]
      rfl
    · rw [if_neg hedit] at hid ⊢
      rw [if_neg (hid ▸ hedit)]
      exact h.named current hcurrent t ht hid
  copies u hu n hid := by
    obtain ⟨t, ht, rfl⟩ := List.mem_map.1 hu
    rw [id_edited] at hid
    exact h.copies t ht n hid
  started := h.started

theorem moves (h : s.Registers) (move : s.MovesAlone t) : t.Registers := by
  cases move with
  | commit v changes => exact h.commit v changes
  | refresh => exact h.refresh
  | start => exact h.startReload
  | finish v hnumber => exact h.finishReload v hnumber
  | keep v set => exact h.keep _
  | edit hname => exact h.edited hname

/-- Whatever happens, the fixed sources stay registered. -/
theorem reaches (h : s.Registers) (reached : Relation.ReflTransGen MovesAlone s t) :
    t.Registers := by
  induction reached with
  | refl => exact h
  | tail _ move ih => exact ih.moves move

/-! ### Refreshing and reloading -/

/-- A reload publishes the fixed sources, with the snapshot of them kept. -/
theorem reloadAlone_cases (h : s.Registers) (v : View Id) :
    (∃ event, (s.reloadAlone v).1 = .ok event) ∧
      (s.reloadAlone v).2.published = .ofSources s.fixed (s.version + 1) ∧
      (s.reloadAlone v).2.writable = s.writable ∧
      (s.reloadAlone v).2.snapshot v = (v.build (s.reloadAlone v).2.published).run := by
  have hstarted : s.startReload.2.publishedReload ≤ s.startReload.1 :=
    Nat.le_succ_of_le h.started
  have hreload : s.reloadAlone v = _ := finishReload_of_new v rfl hstarted
  rw [hreload]
  refine ⟨⟨_, rfl⟩, ?_, ?_, ?_⟩
  · rw [published_seen, published_adopt, List.append_nil, fixed_seen, version_seen]
    rfl
  · rw [writable_seen, writable_adopt, writable_seen]
    rfl
  · rw [snapshot_seen, published_seen]
    exact snapshot_of_uncached rfl v

/-- A reload publishes the set that a refresh does, if every entry is current. -/
theorem published_reloadAlone (h : s.Registers) (hcurrent : ∀ r ∈ s.published.entries, r.IsCurrent)
    (v : View Id) : (s.reloadAlone v).2.published = s.refresh.published :=
  (h.reloadAlone_cases v).2.1.trans
    (SourceSet.ofSources_eq_of_isCurrent h.sources h.made hcurrent (s.version + 1))

/-- The same sources are listed behind a refresh and a reload only if every entry is current. -/
theorem isCurrent_of_summary_eq (h : s.Registers) {v : View Id}
    (heq : s.refresh.published.summary = (s.reloadAlone v).2.published.summary) :
    ∀ r ∈ s.published.entries, r.IsCurrent := by
  rw [(h.reloadAlone_cases v).2.1] at heq
  exact SourceSet.isCurrent_of_summary_eq h.sources heq.symm

end Registers

end Store

end LayeredConfig
