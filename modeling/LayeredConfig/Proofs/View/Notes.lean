import LayeredConfig.Filter.Action
import LayeredConfig.Live
import LayeredConfig.Proofs.Filter.Running
import LayeredConfig.Proofs.SourceSet.Precedence

/-! # Notes in snapshots

A snapshot keeps the notes on a value under keys made of its key and their names, and as there may
be dots in both, two notes may come under one key. A note whose name has no dot is always found
(`get?_metadata`): what else comes under its key belongs to a shorter key, which comes earlier.

What is noted does not depend on what resolvers answer, nor on what they do. So every snapshot that
may be built of a set of sources keeps the notes on its keys, and unless filters note something
under a name with a dot it tells no source of other keys (`notes_are_own`). -/

namespace LayeredConfig

/-! ### Keys of notes -/

theorem toList_noteKey (key name : String) :
    (noteKey key name).toList = '_' :: key.toList ++ '.' :: name.toList := by
  unfold noteKey reservedMark
  simp [String.toList_append]

/-- Under the key of a note whose name has no dot there are only notes on keys that are not
above. -/
theorem not_lt_of_noteKey_eq {key key' name name' : String} (hname : '.' ∉ name.toList)
    (h : noteKey key name = noteKey key' name') : ¬ key < key' := by
  have hlist : key.toList ++ '.' :: name.toList = key'.toList ++ '.' :: name'.toList := by
    have := congrArg String.toList h
    rw [toList_noteKey, toList_noteKey] at this
    exact (List.cons.inj this).2
  have hprefix : ∃ more, key.toList = key'.toList ++ more := by
    rcases List.append_eq_append_iff.1 hlist with ⟨as, hkey', hrest⟩ | ⟨bs, hkey, -⟩
    · cases as with
      | nil => exact ⟨[], by rw [hkey', List.append_nil, List.append_nil]⟩
      | cons a as =>
        refine absurd ?_ hname
        rw [(List.cons.inj hrest).2]
        exact List.mem_append_right _ List.mem_cons_self
    · exact ⟨bs, hkey⟩
  obtain ⟨more, hmore⟩ := hprefix
  rw [String.lt_iff, hmore]
  exact List.le_append_left

theorem noteKey_injective (key : String) : Function.Injective (noteKey key) := by
  intro name name' h
  have hlist := congrArg String.toList h
  rw [toList_noteKey, toList_noteKey] at hlist
  exact String.toList_injective (List.cons.inj (List.append_cancel_left hlist)).2

namespace View

/-- The notes on entries under the keys of a snapshot. -/
def metadataOf (entries : List (String × PropertyValue)) : List (String × String) :=
  entries.flatMap fun p => notes p.1 p.2

theorem metadata_build (v : View Id) (set : SourceSet) :
    (v.build set).run.metadata = .ofList (metadataOf (v.visible set)) := rfl

theorem mem_notes {key : String} {value : PropertyValue} {k text : String} :
    (k, text) ∈ notes key value ↔
      ∃ name, value.note? name = some text ∧ k = noteKey key name := by
  unfold notes
  rw [List.mem_map]
  constructor
  · rintro ⟨⟨name, note⟩, hmem, heq⟩
    cases heq
    exact ⟨name, KeyMap.mem_entries_iff.1 hmem, rfl⟩
  · rintro ⟨name, hname, rfl⟩
    exact ⟨(name, text), KeyMap.mem_entries_iff.2 hname, rfl⟩

theorem lookup_reverse_notes {key name text : String} {value : PropertyValue}
    (h : value.note? name = some text) :
    (notes key value).reverse.lookup (noteKey key name) = some text := by
  have hdistinct : (notes key value).Pairwise fun a b => a.1 ≠ b.1 := by
    refine List.pairwise_map.2 (value.notes.pairwise_entries_ne.imp fun hne heq => hne ?_)
    exact noteKey_injective key heq
  rw [← KeyMap.get?_ofList, KeyMap.get?_ofList_eq_some hdistinct]
  exact mem_notes.2 ⟨name, h, rfl⟩

/-- A note whose name has no dot is found under its key. -/
theorem get?_metadata {entries : List (String × PropertyValue)}
    (hsorted : entries.Pairwise fun a b => a.1 < b.1) {key name text : String}
    {value : PropertyValue} (hmem : (key, value) ∈ entries) (hname : '.' ∉ name.toList)
    (hnote : value.note? name = some text) :
    (KeyMap.ofList (metadataOf entries)).get? (noteKey key name) = some text := by
  obtain ⟨before, behind, rfl⟩ := List.append_of_mem hmem
  have hbehind : (metadataOf behind).reverse.lookup (noteKey key name) = none := by
    refine List.lookup_eq_none_iff.2 fun p hp => ?_
    obtain ⟨⟨key', value'⟩, hmem', hp⟩ := List.mem_flatMap.1 (List.mem_reverse.1 hp)
    obtain ⟨name', -, heq⟩ := mem_notes.1 hp
    have hlt : key < key' := (List.pairwise_cons.1 (List.pairwise_append.1 hsorted).2.1).1 _ hmem'
    have hne : noteKey key name ≠ p.1 := fun h => not_lt_of_noteKey_eq hname (h.trans heq) hlt
    simpa using hne
  have hsplit : metadataOf (before ++ (key, value) :: behind) =
      metadataOf before ++ (notes key value ++ metadataOf behind) := by
    unfold metadataOf
    rw [List.flatMap_append, List.flatMap_cons]
  rw [KeyMap.get?_ofList, hsplit, List.reverse_append, List.reverse_append, List.lookup_append,
    List.lookup_append, hbehind, lookup_reverse_notes hnote]
  rfl

/-- What is found under other keys than those of the notes on some entries does not depend on these
entries. -/
theorem get?_metadata_filter (p : String × PropertyValue → Bool)
    (entries : List (String × PropertyValue)) {k : String}
    (h : ∀ e ∈ entries, p e = false → ∀ name, (e.2.note? name).isSome → k ≠ noteKey e.1 name) :
    (KeyMap.ofList (metadataOf (entries.filter p))).get? k =
      (KeyMap.ofList (metadataOf entries)).get? k := by
  rw [KeyMap.get?_ofList, KeyMap.get?_ofList]
  induction entries with
  | nil => rfl
  | cons e rest ih =>
    have hrest := ih fun e he => h e (List.mem_cons_of_mem _ he)
    have hcons : ∀ es, (metadataOf (e :: es)).reverse.lookup k =
        ((metadataOf es).reverse.lookup k).or ((notes e.1 e.2).reverse.lookup k) := by
      intro es
      unfold metadataOf
      rw [List.flatMap_cons, List.reverse_append, List.lookup_append]
    cases hp : p e with
    | true => rw [List.filter_cons_of_pos hp, hcons, hcons, hrest]
    | false =>
      have hnone : (notes e.1 e.2).reverse.lookup k = none := by
        refine List.lookup_eq_none_iff.2 fun note hnote => ?_
        obtain ⟨name, hname, heq⟩ := mem_notes.1 (List.mem_reverse.1 hnote)
        have hne := h e List.mem_cons_self hp name (Option.isSome_iff_exists.2 ⟨_, hname⟩)
        simpa using fun hk : k = note.1 => hne (hk.trans heq)
      rw [List.filter_cons_of_neg (by simp [hp]), hrest, hcons, hnone, Option.or_none]

theorem pairwise_lt_visible {m : Type → Type} (v : View m) (set : SourceSet) :
    (v.visible set).Pairwise fun a b => a.1 < b.1 :=
  (v.pipeline.applyBulk set.merge).sorted.filter _

theorem mem_metadataOf {entries : List (String × PropertyValue)} {k text : String} :
    (k, text) ∈ metadataOf entries ↔ ∃ key value name,
      (key, value) ∈ entries ∧ value.note? name = some text ∧ k = noteKey key name := by
  unfold metadataOf
  rw [List.mem_flatMap]
  constructor
  · rintro ⟨⟨key, value⟩, hmem, hnote⟩
    obtain ⟨name, hname, rfl⟩ := mem_notes.1 hnote
    exact ⟨key, value, name, hmem, hname, rfl⟩
  · rintro ⟨key, value, name, hmem, hname, rfl⟩
    exact ⟨(key, value), hmem, mem_notes.2 ⟨name, hname, rfl⟩⟩

/-! ### What may be built -/

section Building

open MonadAttach

variable {m : Type → Type} [Monad m] [LawfulMonad m] [MonadAttach m] [LawfulMonadAttach m]

/-- What a program makes of the elements of a list agrees with them where each step does. -/
theorem map_eq_of_canReturn_mapM {α β γ : Type} {f : α → m β} {g : β → γ} {h : α → γ}
    (hstep : ∀ a b, CanReturn (f a) b → g b = h a) {as : List α} {bs : List β}
    (hreturn : CanReturn (as.mapM f) bs) : bs.map g = as.map h := by
  induction as generalizing bs with
  | nil =>
    rw [List.mapM_nil] at hreturn
    rw [← LawfulMonadAttach.eq_of_canReturn_pure hreturn]
    rfl
  | cons a rest ih =>
    rw [List.mapM_cons] at hreturn
    obtain ⟨b, hb, hreturn⟩ := LawfulMonadAttach.canReturn_bind_imp' hreturn
    obtain ⟨bs', hbs, hreturn⟩ := LawfulMonadAttach.canReturn_bind_imp' hreturn
    rw [← LawfulMonadAttach.eq_of_canReturn_pure hreturn, List.map_cons, List.map_cons,
      hstep a b hb, ih hbs]

variable {v : View m} {set : SourceSet} {s : Snapshot}

/-- Whatever resolvers do, a snapshot has the keys that are visible and the notes on them. -/
theorem of_canReturn_build (built : CanReturn (v.build set) s) :
    (∃ values, values.map Prod.fst = (v.visible set).map Prod.fst ∧ s.values = .ofList values) ∧
      s.metadata = .ofList (metadataOf (v.visible set)) := by
  unfold build at built
  obtain ⟨values, hvalues, hreturn⟩ := LawfulMonadAttach.canReturn_bind_imp' built
  have heq := LawfulMonadAttach.eq_of_canReturn_pure hreturn
  refine ⟨⟨values, map_eq_of_canReturn_mapM (fun p q hq => ?_) hvalues, ?_⟩, ?_⟩
  · obtain ⟨text, -, hq⟩ := LawfulMonadAttach.canReturn_bind_imp' hq
    rw [← LawfulMonadAttach.eq_of_canReturn_pure hq]
  · rw [← heq]
  · rw [← heq]
    rfl

/-- The keys of a snapshot are those with a text that passes the filters. -/
theorem contains_iff_of_canReturn_build (built : CanReturn (v.build set) s) (key : String) :
    s.contains key = true ↔ ∃ value,
      (v.pipeline.applyBulk set.merge).get? key = some value ∧ value.isNull = false := by
  obtain ⟨⟨values, hkeys, hvalues⟩, -⟩ := of_canReturn_build built
  have hlookup : s.contains key = true ↔ key ∈ values.map Prod.fst := by
    unfold Snapshot.contains KeyMap.contains
    rw [hvalues, KeyMap.get?_ofList, List.lookup_isSome_iff]
    simp
  rw [hlookup, hkeys]
  simp [mem_visible]

end Building

end View

/-! ### Names without dots -/

/-- Whether a filter adds no note whose name has a dot. -/
def Filter.AddsNoDots (f : Filter) : Prop :=
  ∀ v ctx w, f.run v ctx = .ok (some w) →
    ∀ name, '.' ∈ name.toList → (w.note? name).isSome → (v.note? name).isSome

theorem Filter.addsNoDots_hideReserved : Filter.hideReserved.AddsNoDots := by
  intro v ctx w hrun name _ hnote
  have hw : some v = some w := by
    have hanswer := Except.ok.inj hrun
    split at hanswer
    · cases hanswer
    · exact hanswer
  rwa [Option.some.inj hw]

/-- The notes of a registered source have names without dots. -/
theorem PropertyValue.isSome_note?_annotate {key text source name : String} {ordinal : Int}
    (h : (((of key text source).annotate source ordinal).note? name).isSome) :
    '.' ∉ name.toList := by
  have hname : name = timestampNote ∨ name = ordinalNote ∨ name = sourceNote := by
    unfold annotate note? withNote of at h
    simp only [KeyMap.get?_insert, KeyMap.get?_empty] at h
    grind
  rcases hname with rfl | rfl | rfl <;> decide

theorem SourceSet.dot_notMem_of_note?_merge {set : SourceSet} {key name : String}
    {value : PropertyValue} (h : set.merge.get? key = some value)
    (hnote : (value.note? name).isSome) : '.' ∉ name.toList := by
  rw [get?_merge] at h
  obtain ⟨r, -, hr⟩ := List.exists_of_findSome?_eq_some h
  unfold Registered.scanned? at hr
  split at hr
  · obtain ⟨text, -, rfl⟩ := Option.map_eq_some_iff.1 hr
    exact PropertyValue.isSome_note?_annotate hnote
  · cases hr

/-- What filters take a value to has no more notes with dots than the value, if they add none. -/
theorem Filter.Passes.isSome_note? {ctx : FilterContext} {fs kept : List Filter}
    {v x : PropertyValue} (h : Passes ctx fs v kept x) (hfilters : ∀ f ∈ fs, f.AddsNoDots)
    {name : String} (hname : '.' ∈ name.toList) (hnote : (x.note? name).isSome) :
    (v.note? name).isSome := by
  induction h with
  | nil v => exact hnote
  | keeps hanswer _ _ ih =>
    obtain ⟨hf, hrest⟩ := List.forall_mem_cons.1 hfilters
    exact hf _ _ _ hanswer name hname (ih hrest hnote)
  | renames _ _ _ ih => exact ih (List.forall_mem_cons.1 hfilters).2 hnote
  | fails _ _ ih => exact ih (List.forall_mem_cons.1 hfilters).2 hnote

theorem noteKey_inj_of_dot_notMem {key key' name name' : String} (hname : '.' ∉ name.toList)
    (hname' : '.' ∉ name'.toList) (h : noteKey key name = noteKey key' name') : key = key' :=
  String.le_antisymm (String.not_lt.1 (not_lt_of_noteKey_eq hname' h.symm))
    (String.not_lt.1 (not_lt_of_noteKey_eq hname h))

namespace View

open MonadAttach

variable {m : Type → Type}

/-- The notes on what is visible have names without dots, if filters add none that do. -/
theorem dot_notMem_of_mem_visible {v : View m} {set : SourceSet} {key name : String}
    {value : PropertyValue} (hfilters : ∀ f ∈ v.pipeline.filters, f.AddsNoDots)
    (hmem : (key, value) ∈ v.visible set) (hnote : (value.note? name).isSome) :
    '.' ∉ name.toList := by
  intro hname
  have hget := (mem_visible.1 hmem).1
  rw [Pipeline.get?_applyBulk _ fun _ _ => SourceSet.key_of_get?_merge] at hget
  obtain ⟨merged, hmerged, happly⟩ := Option.bind_eq_some_iff.1 hget
  rw [Pipeline.apply_eq_foldlM] at happly
  obtain ⟨kept, hpasses⟩ := Filter.foldlM_step_eq_some_iff.1 happly
  exact SourceSet.dot_notMem_of_note?_merge hmerged
    (hpasses.isSome_note? hfilters hname hnote) hname

/-- **The notes on a key are its own.** Take any snapshot that may be built, by any filters and
resolvers, of any set of sources. Its keys are those with a text that passes the filters, and under
the key of a note on one of them, if the name of the note has no dot, there is that note, whatever
other keys and notes there are; so the source that is noted on the value of a key is told. If no
filter adds a note whose name has a dot, no source is told of a key that is not in the snapshot. -/
theorem notes_are_own [Monad m] [LawfulMonad m] [MonadAttach m] [LawfulMonadAttach m]
    (v : View m) (set : SourceSet) {s : Snapshot} (built : CanReturn (v.build set) s) :
    (∀ key, s.contains key = true ↔ ∃ value,
      (v.pipeline.applyBulk set.merge).get? key = some value ∧ value.isNull = false) ∧
    (∀ key value, s.contains key = true →
      (v.pipeline.applyBulk set.merge).get? key = some value →
      (∀ name text, '.' ∉ name.toList → value.note? name = some text →
        s.metadata.get? (noteKey key name) = some text) ∧
      ∀ source, value.note? sourceNote = some source → s.sourceOf? key = some source) ∧
    ((∀ f ∈ v.pipeline.filters, f.AddsNoDots) →
      ∀ key, s.contains key = false → s.sourceOf? key = none) := by
  have hcontains := contains_iff_of_canReturn_build built
  obtain ⟨-, hmetadata⟩ := of_canReturn_build built
  have hsource : '.' ∉ sourceNote.toList := by decide
  have hown : ∀ key value, s.contains key = true →
      (v.pipeline.applyBulk set.merge).get? key = some value →
      ∀ name text, '.' ∉ name.toList → value.note? name = some text →
        s.metadata.get? (noteKey key name) = some text := by
    intro key value hkey hvalue name text hname hnote
    obtain ⟨value', hvalue', hnull⟩ := (hcontains key).1 hkey
    cases hvalue.symm.trans hvalue'
    rw [hmetadata]
    exact get?_metadata (pairwise_lt_visible v set) (mem_visible.2 ⟨hvalue, hnull⟩) hname hnote
  refine ⟨hcontains, fun key value hkey hvalue => ⟨hown key value hkey hvalue, fun source =>
    hown key value hkey hvalue sourceNote source hsource⟩, fun hfilters key hkey => ?_⟩
  unfold Snapshot.sourceOf?
  rw [hmetadata, Option.eq_none_iff_forall_ne_some]
  intro text hfound
  obtain ⟨key', value, name, hmem, hnote, heq⟩ :=
    mem_metadataOf.1 (KeyMap.mem_of_get?_ofList hfound)
  have hname : '.' ∉ name.toList :=
    dot_notMem_of_mem_visible hfilters hmem (Option.isSome_iff_exists.2 ⟨text, hnote⟩)
  have hin : s.contains key = true := by
    rw [noteKey_inj_of_dot_notMem hsource hname heq]
    exact (hcontains key').2 ⟨value, mem_visible.1 hmem⟩
  rw [hin] at hkey
  cases hkey

/-- A source with a key that goes on with another one. -/
def nestedKeys : Source :=
  (Table.ofPairs "app" [("a", "1"), ("a.b", "$\x7bhook:\x7d")]).toSource (.object 0)

/-- A filter that notes on the shorter key what would be the source of the longer one. -/
def forger : Filter := FilterAction.toFilter (.note "b.source" "forged") "forger" 0 ["a"] .bulk

/-- A context at work with that source and that filter, whose hook is met on the way. -/
def forging : Live where
  setup := ⟨[], defaultTimeout, .ofFilters [.hideReserved, forger], [.hook "hook"], true⟩
  store := .initial [nestedKeys] none ⟨[], 0⟩
  files := .empty

def honest : View Id := ⟨.ofFilters [.hideReserved], .ofResolvers [], true⟩

/-- The source of the longer key is told in spite of the filter, and without the filter none is told
of a key that is not there. -/
theorem notes_are_own_forging :
    (∃ s, CanReturn ((forging.view Live.commit).build forging.store.published) s ∧
      s.contains "a.b" = true ∧ s.sourceOf? "a.b" = some "app") ∧
    ∃ s, CanReturn (honest.build forging.store.published) s ∧
      s.contains "b" = false ∧ s.sourceOf? "b" = none := by
  constructor
  · have hbuilt : CanReturn ((forging.view Live.commit).build forging.store.published)
        (((forging.view Live.commit).build forging.store.published).run forging).run.1 :=
      ⟨forging, _, rfl⟩
    obtain ⟨-, hown, -⟩ := notes_are_own _ _ hbuilt
    have hthere : Snapshot.contains
        (((forging.view Live.commit).build forging.store.published).run forging).run.1 "a.b" =
          true := by decide +kernel
    have hvalue : ((forging.view Live.commit).pipeline.applyBulk
        forging.store.published.merge).get? "a.b" =
          some ((PropertyValue.of "a.b" "$\x7bhook:\x7d" "app").annotate "app" 0) := by
      decide +kernel
    exact ⟨_, hbuilt, hthere, (hown "a.b" _ hthere hvalue).2 "app" (by decide +kernel)⟩
  · have hbuilt : CanReturn (honest.build forging.store.published)
        (honest.build forging.store.published).run := rfl
    have hfilters : ∀ f ∈ honest.pipeline.filters, f.AddsNoDots := by
      intro f hf
      have hmem := Order.mem_sort.1 hf
      cases List.mem_singleton.1 hmem
      exact Filter.addsNoDots_hideReserved
    have hgone : Snapshot.contains (honest.build forging.store.published).run "b" = false := by
      decide +kernel
    exact ⟨_, hbuilt, hgone, (notes_are_own _ _ hbuilt).2.2 hfilters "b" hgone⟩

end View

end LayeredConfig
