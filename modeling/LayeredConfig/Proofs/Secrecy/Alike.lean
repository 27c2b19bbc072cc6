import LayeredConfig.Provider.Files
import LayeredConfig.Store
import Mathlib.Data.List.Forall2

/-! # Alike but for the texts of one key

Two configurations may be alike but for what stands under one key: the same sources in the same
places, the same keys, the same nulls, and the same texts of all other keys. `AlikeBut k` says this
of values, sources, sets of sources, batches of writes and loads, and whatever the library does with
sources keeps it: looking up and merging (`SourceSet.AlikeBut.lookup`, `SourceSet.AlikeBut.merge`),
registering (`SourceSet.alikeBut_ofSources`), replacing (`SourceSet.AlikeBut.replacing`) and loading
(`Provider.alikeBut_loadAll`). The key is never the one by which a source states its ordinal, so
sources that are alike stand in the same order. -/

namespace LayeredConfig

open List (Forall₂)

/-! ### Lists and maps -/

theorem isEmpty_eq_of_forall₂ {α β : Type} {R : α → β → Prop} {as : List α} {bs : List β}
    (h : Forall₂ R as bs) : as.isEmpty = bs.isEmpty := by
  cases h <;> rfl

namespace Order

variable {α β : Type} {R : α → β → Prop} {le : α → α → Bool} {le' : β → β → Bool}

theorem forall₂_insertSorted (hle : ∀ a b, R a b → ∀ c d, R c d → le a c = le' b d) {a : α} {b : β}
    (hab : R a b) {as : List α} {bs : List β} (h : Forall₂ R as bs) :
    Forall₂ R (insertSorted le a as) (insertSorted le' b bs) := by
  induction h with
  | nil => exact .cons hab .nil
  | cons hcd hrest ih =>
    unfold insertSorted
    rw [hle _ _ hab _ _ hcd]
    split
    · exact .cons hab (.cons hcd hrest)
    · exact .cons hcd ih

/-- Lists that are sorted by the same order stay side by side. -/
theorem forall₂_sort (hle : ∀ a b, R a b → ∀ c d, R c d → le a c = le' b d) {as : List α}
    {bs : List β} (h : Forall₂ R as bs) : Forall₂ R (sort le as) (sort le' bs) := by
  induction h with
  | nil => exact .nil
  | cons hab _ ih => exact forall₂_insertSorted hle hab ih

end Order

namespace KeyMap

variable {α β : Type} {R : String → α → β → Prop}

/-- Entries with one key and values that are related under this key. -/
def EntryRel (R : String → α → β → Prop) (p : String × α) (q : String × β) : Prop :=
  p.1 = q.1 ∧ R p.1 p.2 q.2

/-- Maps of the same keys, whose values are related key by key. -/
def Rel (R : String → α → β → Prop) (m : KeyMap α) (n : KeyMap β) : Prop :=
  Forall₂ (EntryRel R) m.entries n.entries

namespace Rel

variable {m : KeyMap α} {n : KeyMap β}

theorem empty : Rel R (∅ : KeyMap α) (∅ : KeyMap β) := Forall₂.nil

theorem insert (h : Rel R m n) {key : String} {a : α} {b : β} (hab : R key a b) :
    Rel R (m.insert key a) (n.insert key b) := by
  show Forall₂ _ (insertEntry key a m.entries) (insertEntry key b n.entries)
  unfold Rel at h
  generalize m.entries = es, n.entries = fs at h
  induction h with
  | nil => exact .cons ⟨rfl, hab⟩ .nil
  | @cons p q _ _ hpq hrest ih =>
    unfold insertEntry
    rw [← hpq.1]
    split
    · exact .cons ⟨rfl, hab⟩ (.cons hpq hrest)
    · split
      · exact .cons ⟨rfl, hab⟩ hrest
      · exact .cons hpq ih

theorem insertAll (h : Rel R m n) {ps : List (String × α)} {qs : List (String × β)}
    (hpq : Forall₂ (EntryRel R) ps qs) : Rel R (m.insertAll ps) (n.insertAll qs) := by
  unfold KeyMap.insertAll
  induction hpq generalizing m n with
  | nil => exact h
  | @cons p q _ _ hpq _ ih =>
    obtain ⟨hkey, hvalue⟩ := hpq
    rw [List.foldl_cons, List.foldl_cons, ← hkey]
    exact ih (h.insert hvalue)

theorem erase (h : Rel R m n) (key : String) : Rel R (m.erase key) (n.erase key) := by
  refine List.rel_filter (fun p q hpq => ?_) h
  show decide (p.1 ≠ key) = true ↔ decide (q.1 ≠ key) = true
  rw [hpq.1]

theorem get? (h : Rel R m n) (key : String) : Option.Rel (R key) (m.get? key) (n.get? key) := by
  show Option.Rel (R key) (m.entries.lookup key) (n.entries.lookup key)
  unfold Rel at h
  generalize m.entries = es, n.entries = fs at h
  induction h with
  | nil => exact .none
  | @cons p q _ _ hpq _ ih =>
    obtain ⟨hkey, hvalue⟩ := hpq
    rw [lookup_cons, lookup_cons, ← hkey]
    split
    · rename_i heq
      exact .some (heq ▸ hvalue)
    · exact ih

theorem values {S : α → β → Prop} (h : Rel R m n) (hRS : ∀ key a b, R key a b → S a b) :
    Forall₂ S m.values n.values :=
  List.rel_map (fun p q hpq => hRS p.1 p.2 q.2 hpq.2) h

end Rel

end KeyMap

variable {k : String}

/-! ### Values and texts -/

/-- Values that differ at most in the text of one key. -/
structure PropertyValue.AlikeBut (k : String) (v w : PropertyValue) : Prop where
  key : v.key = w.key
  source : v.source = w.source
  notes : v.notes = w.notes
  isNull : v.isNull = w.isNull
  value : v.key ≠ k → v.value = w.value

namespace PropertyValue.AlikeBut

variable {v w : PropertyValue}

theorem refl (v : PropertyValue) : v.AlikeBut k v := ⟨rfl, rfl, rfl, rfl, fun _ => rfl⟩

theorem eq_of_value (h : v.AlikeBut k w) (hvalue : v.value = w.value) : v = w := by
  obtain ⟨key, value, source, notes⟩ := v
  obtain ⟨key', value', source', notes'⟩ := w
  obtain ⟨rfl, rfl, rfl, -, -⟩ := h
  cases hvalue
  rfl

theorem eq_of_ne (h : v.AlikeBut k w) (hne : v.key ≠ k) : v = w := h.eq_of_value (h.value hne)

theorem eq_of_isNull (h : v.AlikeBut k w) (hnull : v.isNull = true) : v = w := by
  have hv : v.value = none := Option.isNone_iff_eq_none.1 hnull
  have hw : w.value = none := Option.isNone_iff_eq_none.1 (h.isNull.symm.trans hnull)
  exact h.eq_of_value (hv.trans hw.symm)

theorem withValue (h : v.AlikeBut k w) (text : String) : v.withValue text = w.withValue text := by
  obtain ⟨key, value, source, notes⟩ := v
  obtain ⟨key', value', source', notes'⟩ := w
  obtain ⟨rfl, rfl, rfl, -, -⟩ := h
  rfl

theorem annotate (h : v.AlikeBut k w) (source : String) (ordinal : Int) :
    (v.annotate source ordinal).AlikeBut k (w.annotate source ordinal) where
  key := h.key
  source := h.source
  notes := by
    unfold PropertyValue.annotate PropertyValue.withNote
    rw [h.notes]
  isNull := h.isNull
  value := h.value

/-- Texts under the key by which they are found. -/
theorem of {key a b : String} (h : key ≠ k → a = b) (source : String) :
    (PropertyValue.of key a source).AlikeBut k (.of key b source) :=
  ⟨rfl, rfl, rfl, rfl, fun hne => congrArg some (h hne)⟩

end PropertyValue.AlikeBut

/-- Texts that are the same under any other key. -/
def SameBut (k : String) (key a b : String) : Prop := key ≠ k → a = b

/-- Texts of the same keys, the same but for those of one key. -/
def Properties.AlikeBut (k : String) (ps qs : Properties) : Prop := KeyMap.Rel (SameBut k) ps qs

/-- Writes that differ at most in the text that is put under one key. -/
inductive Change.AlikeBut (k : String) : Change → Change → Prop
  | put {key a b : String} (h : key ≠ k → a = b) : AlikeBut k (.put key a) (.put key b)
  | remove (key : String) : AlikeBut k (.remove key) (.remove key)

theorem Properties.AlikeBut.applyAll {ps qs : Properties} (h : ps.AlikeBut k qs)
    {cs ds : List Change} (hcs : Forall₂ (Change.AlikeBut k) cs ds) :
    (ps.applyAll cs).AlikeBut k (qs.applyAll ds) := by
  unfold Properties.applyAll
  induction hcs generalizing ps qs with
  | nil => exact h
  | cons hcd _ ih =>
    refine ih ?_
    cases hcd with
    | put hab => exact KeyMap.Rel.insert h hab
    | remove key => exact KeyMap.Rel.erase h key

/-! ### Sources -/

/-- Sources that differ at most in the texts of one key. -/
structure Source.AlikeBut (k : String) (s t : Source) : Prop where
  id : s.id = t.id
  name : s.name = t.name
  explicitOrdinal : s.explicitOrdinal = t.explicitOrdinal
  defaultOrdinal : s.defaultOrdinal = t.defaultOrdinal
  isScannable : s.isScannable = t.isScannable
  properties : Option.Rel (Properties.AlikeBut k) s.properties.skip t.properties.skip
  get_of_ne : ∀ key, key ≠ k → s.get key = t.get key
  get : Option.Rel (PropertyValue.AlikeBut k) (s.get k).skip.join (t.get k).skip.join

theorem Source.AlikeBut.lookup {s t : Source} (h : s.AlikeBut k t) (key : String) :
    Option.Rel (PropertyValue.AlikeBut k) (s.get key).skip.join (t.get key).skip.join := by
  by_cases hkey : key = k
  · rw [hkey]
    exact h.get
  · rw [h.get_of_ne key hkey]
    cases (t.get key).skip.join with
    | none => exact .none
    | some v => exact .some (.refl v)

theorem Source.AlikeBut.ordinal {s t : Source} (h : s.AlikeBut k t) (hk : k ≠ ordinalKey) :
    s.ordinal = t.ordinal := by
  unfold Source.ordinal Source.statedOrdinal?
  rw [h.explicitOrdinal, h.defaultOrdinal, h.get_of_ne ordinalKey hk.symm]

/-- Tables that differ at most in the texts of one key. -/
structure Table.AlikeBut (k : String) (t u : Table) : Prop where
  name : t.name = u.name
  explicitOrdinal : t.explicitOrdinal = u.explicitOrdinal
  defaultOrdinal : t.defaultOrdinal = u.defaultOrdinal
  isScannable : t.isScannable = u.isScannable
  pairs : t.pairs.AlikeBut k u.pairs

namespace Table.AlikeBut

variable {t u : Table}

theorem withChanges (h : t.AlikeBut k u) {cs ds : List Change}
    (hcs : Forall₂ (Change.AlikeBut k) cs ds) : (t.withChanges cs).AlikeBut k (u.withChanges ds) :=
  ⟨h.name, h.explicitOrdinal, h.defaultOrdinal, h.isScannable, h.pairs.applyAll hcs⟩

theorem get (h : t.AlikeBut k u) (key : String) :
    Option.Rel (PropertyValue.AlikeBut k) (t.get key) (u.get key) := by
  unfold Table.get
  have hpairs := KeyMap.Rel.get? h.pairs key
  generalize t.pairs.get? key = a, u.pairs.get? key = b at hpairs ⊢
  cases hpairs with
  | none => exact .none
  | some hab =>
    rw [h.name]
    exact .some (.of hab _)

theorem get_of_ne (h : t.AlikeBut k u) {key : String} (hne : key ≠ k) : t.get key = u.get key := by
  unfold Table.get
  have hpairs := KeyMap.Rel.get? h.pairs key
  generalize t.pairs.get? key = a, u.pairs.get? key = b at hpairs ⊢
  cases hpairs with
  | none => rfl
  | some hab => rw [h.name, hab hne]

theorem toSource (h : t.AlikeBut k u) (id : Identity) :
    (t.toSource id).AlikeBut k (u.toSource id) where
  id := rfl
  name := h.name
  explicitOrdinal := h.explicitOrdinal
  defaultOrdinal := h.defaultOrdinal
  isScannable := h.isScannable
  properties := by
    show Option.Rel _ (some t.properties) (some u.properties)
    unfold Table.properties
    rw [h.isScannable]
    split
    · exact .some h.pairs
    · exact .some KeyMap.Rel.empty
  get_of_ne key hne := congrArg Except.ok (h.get_of_ne hne)
  get := h.get k

end Table.AlikeBut

/-- Sources to write to that differ at most in the texts of one key. -/
structure Writable.AlikeBut (k : String) (w x : Writable) : Prop where
  id : w.id = x.id
  table : w.table.AlikeBut k x.table

theorem Writable.AlikeBut.toSource {w x : Writable} (h : w.AlikeBut k x) :
    w.toSource.AlikeBut k x.toSource := by
  unfold Writable.toSource
  rw [h.id]
  exact h.table.toSource x.id

/-! ### Sets of sources -/

/-- Sources that were registered under one ordinal and differ at most in the texts of one key. -/
structure Registered.AlikeBut (k : String) (r s : Registered) : Prop where
  source : r.source.AlikeBut k s.source
  ordinal : r.ordinal = s.ordinal

namespace Registered.AlikeBut

variable {r s : Registered}

theorem of (hk : k ≠ ordinalKey) {a b : Source} (h : a.AlikeBut k b) :
    (Registered.of a).AlikeBut k (.of b) := ⟨h, h.ordinal hk⟩

theorem notAbove {a b c d : Registered} (hab : a.AlikeBut k b) (hcd : c.AlikeBut k d) :
    Registered.notAbove a c = Registered.notAbove b d := by
  unfold Registered.notAbove Registered.name
  rw [hab.ordinal, hcd.ordinal, hab.source.name, hcd.source.name]

theorem lookup (h : r.AlikeBut k s) (key : String) :
    Option.Rel (PropertyValue.AlikeBut k) (r.lookup key) (s.lookup key) := by
  unfold Registered.lookup
  have hfound := h.source.lookup key
  generalize (r.source.get key).skip.join = a, (s.source.get key).skip.join = b at hfound ⊢
  cases hfound with
  | none => exact .none
  | some hab =>
    unfold Registered.annotate Registered.name
    rw [h.ordinal, h.source.name]
    exact .some (hab.annotate _ _)

/-- What is added to a merge. -/
theorem scan (h : r.AlikeBut k s) :
    Forall₂ (KeyMap.EntryRel fun _ => PropertyValue.AlikeBut k) r.scan s.scan := by
  unfold Registered.scan
  have hproperties := h.source.properties
  rw [h.source.isScannable]
  split
  · cases hr : r.source.properties with
    | error e =>
      cases hs : s.source.properties with
      | error e' => exact .nil
      | ok qs => rw [hr, hs] at hproperties; cases hproperties
    | ok ps =>
      cases hs : s.source.properties with
      | error e' => rw [hr, hs] at hproperties; cases hproperties
      | ok qs =>
        rw [hr, hs] at hproperties
        cases hproperties with
        | some hpairs =>
          refine List.rel_map (fun p q hpq => ⟨hpq.1, ?_⟩) hpairs
          obtain ⟨hkey, htext⟩ := hpq
          unfold Registered.annotate Registered.name
          rw [← hkey, h.ordinal, h.source.name]
          exact PropertyValue.AlikeBut.annotate (.of htext _) _ _
  · exact .nil

end Registered.AlikeBut

theorem alikeBut_distinctNames {ss ts : List Source} (h : Forall₂ (Source.AlikeBut k) ss ts) :
    Forall₂ (Source.AlikeBut k) (distinctNames ss) (distinctNames ts) := by
  induction h with
  | nil => exact .nil
  | @cons s t _ _ hst _ ih =>
    refine .cons hst (List.rel_filter (fun a b hab => ?_) ih)
    show decide (a.name ≠ s.name) = true ↔ decide (b.name ≠ t.name) = true
    rw [hab.name, hst.name]

/-- Sets of sources of one version that differ at most in the texts of one key. -/
structure SourceSet.AlikeBut (k : String) (a b : SourceSet) : Prop where
  entries : Forall₂ (Registered.AlikeBut k) a.entries b.entries
  version : a.version = b.version

namespace SourceSet

variable {a b : SourceSet}

theorem alikeBut_ofSources (hk : k ≠ ordinalKey) {ss ts : List Source}
    (h : Forall₂ (Source.AlikeBut k) ss ts) (version : Nat) :
    (ofSources ss version).AlikeBut k (ofSources ts version) where
  entries := by
    refine Order.forall₂_sort (fun _ _ hab _ _ hcd => hab.notAbove hcd) ?_
    exact List.rel_map (fun _ _ => .of hk) (alikeBut_distinctNames h)
  version := rfl

namespace AlikeBut

theorem replacing (hk : k ≠ ordinalKey) (h : a.AlikeBut k b) (old : Identity) {s t : Source}
    (hst : s.AlikeBut k t) (version : Nat) :
    (a.replacing old s version).AlikeBut k (b.replacing old t version) where
  entries := by
    refine Order.forall₂_sort (fun _ _ hab _ _ hcd => hab.notAbove hcd) ?_
    refine List.rel_map (fun r r' hr => ?_) h.entries
    rw [hr.source.id]
    split
    · exact .of hk hst
    · exact hr
  version := rfl

theorem edited (h : a.AlikeBut k b) {s t : Source} (hst : s.AlikeBut k t) :
    (a.edited s).AlikeBut k (b.edited t) where
  entries := by
    refine List.rel_map (fun r r' hr => ?_) h.entries
    rw [hr.source.id, hst.id]
    split
    · exact ⟨hst, hr.ordinal⟩
    · exact hr
  version := h.version

theorem withVersion (h : a.AlikeBut k b) (version : Nat) :
    (a.withVersion version).AlikeBut k (b.withVersion version) := ⟨h.entries, rfl⟩

theorem summary (h : a.AlikeBut k b) : a.summary = b.summary := by
  unfold SourceSet.summary
  have hpairs : Forall₂ Eq (a.entries.map fun r => (r.name, r.ordinal))
      (b.entries.map fun r => (r.name, r.ordinal)) := by
    refine List.rel_map (fun r s hrs => ?_) h.entries
    unfold Registered.name
    rw [hrs.source.name, hrs.ordinal]
  rwa [List.forall₂_eq_eq_eq] at hpairs

theorem merge (h : a.AlikeBut k b) :
    KeyMap.Rel (fun _ => PropertyValue.AlikeBut k) a.merge b.merge := by
  let R : String → PropertyValue → PropertyValue → Prop := fun _ => PropertyValue.AlikeBut k
  have hstep : ∀ m n, KeyMap.Rel R m n → ∀ r s, Registered.AlikeBut k r s →
      KeyMap.Rel R (m.insertAll r.scan) (n.insertAll s.scan) :=
    fun _ _ hmn _ _ hrs => KeyMap.Rel.insertAll hmn hrs.scan
  exact List.rel_foldl hstep KeyMap.Rel.empty h.entries

/-- The highest answer that is not null stands in the same place, and so does the highest null. -/
theorem lookup (h : a.AlikeBut k b) (key : String) :
    Option.Rel (PropertyValue.AlikeBut k) (a.lookup key) (b.lookup key) := by
  have hanswers : Forall₂ (PropertyValue.AlikeBut k) (a.answers key) (b.answers key) :=
    List.rel_filterMap (fun _ _ hrs => hrs.lookup key) (List.rel_reverse h.entries)
  unfold SourceSet.lookup
  generalize a.answers key = as, b.answers key = bs at hanswers
  have hfound : Option.Rel (PropertyValue.AlikeBut k) (as.find? fun v => !v.isNull)
      (bs.find? fun v => !v.isNull) := by
    induction hanswers with
    | nil => exact .none
    | cons hvw _ ih =>
      rw [List.find?_cons, List.find?_cons, hvw.isNull]
      split
      · exact .some hvw
      · exact ih
  show Option.Rel _ ((as.find? fun v => !v.isNull).or as.head?)
    ((bs.find? fun v => !v.isNull).or bs.head?)
  generalize as.find? (fun v => !v.isNull) = x, bs.find? (fun v => !v.isNull) = y at hfound ⊢
  cases hfound with
  | some hxy => exact .some hxy
  | none =>
    cases hanswers with
    | nil => exact .none
    | cons hvw _ => exact .some hvw

end AlikeBut

end SourceSet

/-! ### Loads -/

/-- What loads come to that differ at most in the texts of one key. -/
inductive LoadOutcome.AlikeBut (k : String) : LoadOutcome → LoadOutcome → Prop
  | loaded {ss ts : List Source} (h : Forall₂ (Source.AlikeBut k) ss ts) :
    AlikeBut k (.loaded ss) (.loaded ts)
  | failed (e e' : ConfigError) : AlikeBut k (.failed e) (.failed e')
  | silent : AlikeBut k .silent .silent
  | ended : AlikeBut k .ended .ended

/-- What reloads have loaded that differs at most in the texts of one key. -/
structure Loaded.AlikeBut (k : String) (a b : Loaded) : Prop where
  sources : Forall₂ (Source.AlikeBut k) a.sources b.sources
  failed : a.failed = b.failed

/-- Providers whose loads, each with its own files, differ at most in the texts of one key. -/
structure Provider.AlikeBut (k : String) (files files' : FileTree) (p q : Provider) : Prop where
  load : ∀ number, (p.load number files).AlikeBut k (q.load number files')
  nested : p.nested = q.nested

namespace Provider

variable {files files' : FileTree} {p q : Provider} {ps qs : List Provider}

theorem AlikeBut.loadOne (h : p.AlikeBut k files files' q) (limit limit' : Duration)
    (number : Nat) : Option.Rel (Forall₂ (Source.AlikeBut k)) (p.loadOne limit number files).skip
      (q.loadOne limit' number files').skip := by
  have hload := h.load number
  unfold Provider.loadOne
  generalize p.load number files = a, q.load number files' = b at hload ⊢
  cases hload with
  | loaded hst => exact .some hst
  | failed e e' => exact .none
  | silent => exact .none
  | ended => exact .none

theorem alikeBut_loadAll (h : Forall₂ (Provider.AlikeBut k files files') ps qs)
    (limit limit' : Duration) (number : Nat) :
    (loadAll ps limit number files).AlikeBut k (loadAll qs limit' number files') := by
  have hresults : Forall₂ (Option.Rel (Forall₂ (Source.AlikeBut k)))
      (ps.map fun p => (p.loadOne limit number files).skip)
      (qs.map fun q => (q.loadOne limit' number files').skip) :=
    List.rel_map (fun _ _ hpq => hpq.loadOne limit limit' number) h
  refine ⟨List.rel_flatten (List.rel_filterMap (fun _ _ hab => hab) hresults), ?_⟩
  show List.countP Option.isNone _ = List.countP Option.isNone _
  generalize (ps.map fun p => (p.loadOne limit number files).skip) = as,
    (qs.map fun q => (q.loadOne limit' number files').skip) = bs at hresults
  induction hresults with
  | nil => rfl
  | cons hab _ ih =>
    rw [List.countP_cons, List.countP_cons, ih]
    cases hab <;> rfl

theorem alikeBut_allFailed (h : Forall₂ (Provider.AlikeBut k files files') ps qs)
    {a b : Loaded} (hab : a.AlikeBut k b) : allFailed ps a = allFailed qs b := by
  unfold allFailed
  rw [hab.failed, h.length_eq, isEmpty_eq_of_forall₂ h]

end Provider

end LayeredConfig
