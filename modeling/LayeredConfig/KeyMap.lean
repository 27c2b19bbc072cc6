/-! # Maps keyed by text

A map from text keys to values is kept as the list of its entries in strictly increasing key order,
by code point. The order is part of the type, so a map is determined by its look-ups
(`ext_get?`), and reading the entries off in order needs no sorting.

`get?_insert`, `get?_erase` and `get?_filterMap` say what each operation does to the look-ups. -/

namespace LayeredConfig

universe u v

/-- Entries in strictly increasing key order. -/
structure KeyMap (α : Type u) where
  entries : List (String × α)
  sorted : entries.Pairwise fun a b => a.1 < b.1
  deriving DecidableEq

namespace KeyMap

variable {α : Type u} {β : Type v}

/-! ### Entry lists -/

/-- Puts an entry at its place, instead of the one that has its key. -/
def insertEntry (key : String) (value : α) : List (String × α) → List (String × α)
  | [] => [(key, value)]
  | entry :: rest =>
    if key < entry.1 then (key, value) :: entry :: rest
    else if key = entry.1 then (key, value) :: rest
    else entry :: insertEntry key value rest

theorem lookup_cons (key : String) (e : String × α) (es : List (String × α)) :
    (e :: es).lookup key = if key = e.1 then some e.2 else es.lookup key := by
  rw [List.lookup_cons]
  by_cases h : key = e.1
  · simp [h]
  · have : (key == e.1) = false := by simpa using h
    simp [h, this]

theorem mem_insertEntry {key : String} {value : α} {es : List (String × α)} {e : String × α}
    (h : e ∈ insertEntry key value es) : e = (key, value) ∨ e ∈ es := by
  induction es with
  | nil => simpa [insertEntry] using h
  | cons entry rest ih =>
    simp only [insertEntry] at h
    split at h
    · simpa using h
    · split at h
      · rcases List.mem_cons.1 h with h | h
        · exact .inl h
        · exact .inr (List.mem_cons_of_mem _ h)
      · rcases List.mem_cons.1 h with h | h
        · exact .inr (h ▸ List.mem_cons_self)
        · exact (ih h).imp_right (List.mem_cons_of_mem _)

theorem sorted_insertEntry (key : String) (value : α) {es : List (String × α)}
    (h : es.Pairwise fun a b => a.1 < b.1) :
    (insertEntry key value es).Pairwise fun a b => a.1 < b.1 := by
  induction es with
  | nil => simp [insertEntry]
  | cons entry rest ih =>
    obtain ⟨hd, tl⟩ := List.pairwise_cons.1 h
    simp only [insertEntry]
    split
    · rename_i hlt
      refine List.pairwise_cons.2 ⟨fun e he => ?_, h⟩
      rcases List.mem_cons.1 he with rfl | he
      · exact hlt
      · exact String.lt_trans hlt (hd e he)
    · rename_i hge
      split
      · rename_i heq
        exact List.pairwise_cons.2 ⟨fun e he => by simpa [heq] using hd e he, tl⟩
      · rename_i hne
        refine List.pairwise_cons.2 ⟨fun e he => ?_, ih tl⟩
        rcases mem_insertEntry he with rfl | he
        · exact Std.lt_of_le_of_ne (String.not_lt.1 hge) (Ne.symm hne)
        · exact hd e he

theorem lookup_insertEntry (key other : String) (value : α) (es : List (String × α)) :
    (insertEntry key value es).lookup other =
      if other = key then some value else es.lookup other := by
  induction es with
  | nil => simp [insertEntry, lookup_cons]
  | cons entry rest ih =>
    simp only [insertEntry]
    split
    · simp [lookup_cons]
    · split
      · rename_i heq
        rw [lookup_cons, lookup_cons, ← heq]
        by_cases ho : other = key <;> simp [ho]
      · rename_i hne
        by_cases ho : other = key
        · subst ho; simp [lookup_cons, ih, hne]
        · simp [lookup_cons, ih, ho]

theorem lookup_eq_none {key : String} {es : List (String × α)} (h : ∀ e ∈ es, key < e.1) :
    es.lookup key = none := by
  refine List.lookup_eq_none_iff.2 fun e he => ?_
  simpa using fun heq : key = e.1 => String.lt_irrefl e.1 (heq ▸ h e he)

/-- Two entry lists in strict key order with the same look-ups are the same list. -/
theorem entries_ext {es fs : List (String × α)} (he : es.Pairwise fun a b => a.1 < b.1)
    (hf : fs.Pairwise fun a b => a.1 < b.1) (h : ∀ k, es.lookup k = fs.lookup k) : es = fs := by
  induction es generalizing fs with
  | nil =>
    cases fs with
    | nil => rfl
    | cons f fs => simpa [lookup_cons] using h f.1
  | cons e es ih =>
    obtain ⟨hde, tle⟩ := List.pairwise_cons.1 he
    cases fs with
    | nil => simpa [lookup_cons] using h e.1
    | cons f fs =>
      obtain ⟨hdf, tlf⟩ := List.pairwise_cons.1 hf
      have hkey : e.1 = f.1 := by
        refine String.le_antisymm (String.not_lt.1 fun hlt => ?_) (String.not_lt.1 fun hlt => ?_)
        · have hn : (e :: es).lookup f.1 = none := lookup_eq_none fun x hx => by
            rcases List.mem_cons.1 hx with rfl | hx
            · exact hlt
            · exact String.lt_trans hlt (hde x hx)
          simp [h f.1, lookup_cons] at hn
        · have hn : (f :: fs).lookup e.1 = none := lookup_eq_none fun x hx => by
            rcases List.mem_cons.1 hx with rfl | hx
            · exact hlt
            · exact String.lt_trans hlt (hdf x hx)
          simp [← h e.1, lookup_cons] at hn
      have hval : e.2 = f.2 := by simpa [lookup_cons, hkey] using h f.1
      have hrest : es = fs := ih tle tlf fun k => by
        by_cases hk : k = f.1
        · subst hk
          rw [lookup_eq_none (hkey ▸ hde), lookup_eq_none hdf]
        · simpa [lookup_cons, hkey, hk] using h k
      rw [hrest, Prod.ext hkey hval]

/-! ### Operations -/

/-- The map without entries. -/
def empty : KeyMap α := ⟨[], .nil⟩

instance : EmptyCollection (KeyMap α) := ⟨empty⟩

instance : Inhabited (KeyMap α) := ⟨∅⟩

/-- The value of a key. -/
def get? (m : KeyMap α) (key : String) : Option α := m.entries.lookup key

/-- Whether a key has a value. -/
def contains (m : KeyMap α) (key : String) : Bool := (m.get? key).isSome

/-- Gives a key a value, in place of the one it had. -/
def insert (m : KeyMap α) (key : String) (value : α) : KeyMap α :=
  ⟨insertEntry key value m.entries, sorted_insertEntry key value m.sorted⟩

/-- Takes a key out. -/
def erase (m : KeyMap α) (key : String) : KeyMap α :=
  ⟨m.entries.filter (·.1 ≠ key), m.sorted.filter _⟩

/-- Inserts one pair after the other, so a later pair wins. -/
def insertAll (m : KeyMap α) (pairs : List (String × α)) : KeyMap α :=
  pairs.foldl (fun m p => m.insert p.1 p.2) m

/-- The map of a list of pairs; a later pair with the same key wins. -/
def ofList (pairs : List (String × α)) : KeyMap α := empty.insertAll pairs

/-- The pairs in key order. -/
def toList (m : KeyMap α) : List (String × α) := m.entries

/-- The keys in order. -/
def keys (m : KeyMap α) : List String := m.entries.map (·.1)

/-- The values in key order. -/
def values (m : KeyMap α) : List α := m.entries.map (·.2)

/-- The number of keys. -/
def size (m : KeyMap α) : Nat := m.entries.length

/-- Whether there are no keys. -/
def isEmpty (m : KeyMap α) : Bool := m.entries.isEmpty

/-- Changes or drops each value; the keys stay. -/
def filterMap (f : String → α → Option β) (m : KeyMap α) : KeyMap β where
  entries := m.entries.filterMap fun e => (f e.1 e.2).map (e.1, ·)
  sorted := by
    refine List.pairwise_filterMap.2 (m.sorted.imp fun hlt x hx y hy => ?_)
    obtain ⟨_, -, rfl⟩ := Option.map_eq_some_iff.1 hx
    obtain ⟨_, -, rfl⟩ := Option.map_eq_some_iff.1 hy
    exact hlt

/-! ### Look-ups -/

theorem ext_get? {m n : KeyMap α} (h : ∀ k, m.get? k = n.get? k) : m = n := by
  obtain ⟨es, he⟩ := m
  obtain ⟨fs, hf⟩ := n
  have : es = fs := entries_ext he hf h
  subst this
  rfl

@[simp] theorem get?_empty (k : String) : (∅ : KeyMap α).get? k = none := rfl

@[simp] theorem get?_insert (m : KeyMap α) (key k : String) (value : α) :
    (m.insert key value).get? k = if k = key then some value else m.get? k :=
  lookup_insertEntry key k value m.entries

@[simp] theorem get?_erase (m : KeyMap α) (key k : String) :
    (m.erase key).get? k = if k = key then none else m.get? k := by
  show (m.entries.filter _).lookup k = if k = key then none else m.entries.lookup k
  induction m.entries with
  | nil => simp
  | cons e es ih =>
    by_cases he : e.1 = key
    · rw [List.filter_cons_of_neg (by simpa using he), ih]
      by_cases hk : k = key
      · simp [hk]
      · simp [hk, lookup_cons, he]
    · rw [List.filter_cons_of_pos (by simpa using he)]
      by_cases hk : k = e.1
      · subst hk; simp [lookup_cons, he]
      · rw [lookup_cons, lookup_cons, if_neg hk, if_neg hk, ih]

/-- Of several pairs with one key the last one counts. -/
theorem get?_insertAll (m : KeyMap α) (pairs : List (String × α)) (k : String) :
    (m.insertAll pairs).get? k = (pairs.reverse.lookup k).or (m.get? k) := by
  induction pairs generalizing m with
  | nil => rfl
  | cons p ps ih =>
    show ((m.insert p.1 p.2).insertAll ps).get? k = _
    rw [ih, get?_insert, List.reverse_cons, List.lookup_append, Option.or_assoc, lookup_cons]
    by_cases hk : k = p.1 <;> simp [hk]

theorem get?_ofList (pairs : List (String × α)) (k : String) :
    (ofList pairs).get? k = pairs.reverse.lookup k := by
  show (empty.insertAll pairs).get? k = _
  rw [get?_insertAll]
  exact Option.or_none

theorem mem_of_get?_ofList {pairs : List (String × α)} {k : String} {a : α}
    (h : (ofList pairs).get? k = some a) : (k, a) ∈ pairs := by
  rw [get?_ofList] at h
  obtain ⟨before, behind, heq, -⟩ := List.lookup_eq_some_iff.1 h
  rw [← List.mem_reverse, heq]
  exact List.mem_append_right _ List.mem_cons_self

theorem mem_entries_iff {m : KeyMap α} {key : String} {value : α} :
    (key, value) ∈ m.entries ↔ m.get? key = some value := by
  obtain ⟨es, hs⟩ := m
  show _ ↔ es.lookup key = some value
  induction es with
  | nil => simp
  | cons e es ih =>
    obtain ⟨hd, tl⟩ := List.pairwise_cons.1 hs
    by_cases hk : key = e.1
    · subst hk
      have hn : (e.1, value) ∉ es := fun hm => String.lt_irrefl _ (hd (e.1, value) hm)
      simp [lookup_cons, hn, Prod.ext_iff, eq_comm]
    · have hne : (key, value) ≠ e := fun h => hk (h ▸ rfl)
      simp [lookup_cons, hk, hne, ih tl]

@[simp] theorem get?_filterMap (f : String → α → Option β) (m : KeyMap α) (k : String) :
    (m.filterMap f).get? k = (m.get? k).bind (f k) := by
  refine Option.ext fun b => ?_
  rw [← mem_entries_iff, Option.bind_eq_some_iff]
  simp only [filterMap, List.mem_filterMap, Option.map_eq_some_iff, Prod.mk.injEq]
  constructor
  · rintro ⟨⟨k', a⟩, hm, b', hb, rfl, rfl⟩
    exact ⟨a, mem_entries_iff.1 hm, hb⟩
  · rintro ⟨a, ha, hb⟩
    exact ⟨(k, a), mem_entries_iff.2 ha, b, hb, rfl, rfl⟩

/-- A list of pairs without repeated keys loses none in its map. -/
theorem get?_ofList_eq_some {pairs : List (String × α)}
    (h : pairs.Pairwise fun a b => a.1 ≠ b.1) {k : String} {a : α} :
    (ofList pairs).get? k = some a ↔ (k, a) ∈ pairs := by
  refine ⟨mem_of_get?_ofList, fun hmem => ?_⟩
  rw [get?_ofList]
  obtain ⟨before, behind, rfl⟩ := List.append_of_mem hmem
  have hbehind : ∀ p ∈ behind.reverse, k ≠ p.1 := fun p hp =>
    (List.pairwise_cons.1 (List.pairwise_append.1 h).2.1).1 p (List.mem_reverse.1 hp)
  refine List.lookup_eq_some_iff.2 ⟨behind.reverse, before.reverse, by simp, fun p hp => ?_⟩
  simpa using hbehind p hp

theorem mem_values_iff {m : KeyMap α} {a : α} : a ∈ m.values ↔ ∃ key, m.get? key = some a := by
  constructor
  · intro h
    obtain ⟨⟨key, b⟩, hmem, rfl⟩ := List.mem_map.1 h
    exact ⟨key, mem_entries_iff.1 hmem⟩
  · rintro ⟨key, h⟩
    exact List.mem_map.2 ⟨(key, a), mem_entries_iff.2 h, rfl⟩

theorem mem_keys_iff {m : KeyMap α} {key : String} : key ∈ m.keys ↔ (m.get? key).isSome := by
  rw [Option.isSome_iff_exists]
  constructor
  · intro h
    obtain ⟨⟨k, a⟩, hmem, rfl⟩ := List.mem_map.1 h
    exact ⟨a, mem_entries_iff.1 hmem⟩
  · rintro ⟨a, h⟩
    exact List.mem_map.2 ⟨(key, a), mem_entries_iff.2 h, rfl⟩

theorem pairwise_entries_ne (m : KeyMap α) : m.entries.Pairwise fun a b => a.1 ≠ b.1 := by
  refine m.sorted.imp fun {a b} hlt heq => ?_
  rw [heq] at hlt
  exact String.lt_irrefl _ hlt

theorem nodup_keys (m : KeyMap α) : m.keys.Nodup := List.pairwise_map.2 m.pairwise_entries_ne

/-- The entries of a map are looked up alike from either end. -/
theorem lookup_reverse_entries (m : KeyMap α) (key : String) :
    m.entries.reverse.lookup key = m.get? key := by
  rw [← get?_ofList]
  exact Option.ext fun a => (get?_ofList_eq_some m.pairwise_entries_ne).trans mem_entries_iff

/-! ### Other values under the same keys -/

/-- The values of a list may be changed before or after its map is made. -/
theorem ofList_map (f : α → β) (pairs : List (String × α)) :
    ofList (pairs.map fun p => (p.1, f p.2)) = (ofList pairs).filterMap fun _ a => some (f a) := by
  refine ext_get? fun k => ?_
  rw [get?_filterMap, get?_ofList, get?_ofList, ← List.map_reverse]
  induction pairs.reverse with
  | nil => rfl
  | cons p ps ih =>
    rw [List.map_cons, lookup_cons, lookup_cons, ih]
    split <;> rfl

theorem values_filterMap_some (f : α → β) (m : KeyMap α) :
    (m.filterMap fun _ a => some (f a)).values = m.values.map f := by
  show (m.entries.filterMap fun e => some (e.1, f e.2)).map _ = (m.entries.map _).map f
  rw [List.filterMap_eq_map', List.map_map, List.map_map]
  rfl

/-! ### Maps without some keys -/

/-- The map without some keys. -/
def without (m : KeyMap α) (gone : String → Bool) : KeyMap α :=
  m.filterMap fun key value => if gone key then none else some value

@[simp] theorem get?_without (m : KeyMap α) (gone : String → Bool) (k : String) :
    (m.without gone).get? k = if gone k then none else m.get? k := by
  unfold without
  rw [get?_filterMap]
  cases m.get? k <;> simp

theorem entries_without (m : KeyMap α) (gone : String → Bool) :
    (m.without gone).entries = m.entries.filter fun e => !gone e.1 := by
  show m.entries.filterMap _ = _
  rw [← List.filterMap_eq_filter]
  refine congrArg (m.entries.filterMap ·) (funext fun e => ?_)
  cases hgone : gone e.1 <;> simp [Option.guard, hgone]

theorem keys_without (m : KeyMap α) (gone : String → Bool) :
    (m.without gone).keys = m.keys.filter fun key => !gone key := by
  unfold keys
  rw [entries_without, List.filter_map]
  rfl

end KeyMap

end LayeredConfig
