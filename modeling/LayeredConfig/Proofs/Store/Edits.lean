import LayeredConfig.Proofs.Store.Access

/-! # Edits in place

A source that a context has registered may be edited from outside at any time. The context is told
nothing: no version is published, every set that holds the source answers as it does now, and a
snapshot that was kept stays as it was built. A reading that is under way at an edit may find values
from before it and from behind it, and keeps what it has made of them.

From a moment on at which no snapshot of a version is kept and no such reading is under way, the
snapshot of that version is the build of the set as it is, as long as nothing is edited
(`Ordered.snapshot_after_eq_build`). -/

namespace LayeredConfig

/-- What may happen to a context and to its sources. -/
inductive Act
  | access (a : Access)
  /-- A source is edited in place. -/
  | edit (w : Writable)
  /-- A reading of a set, behind which `age` sets have been published, was under way at an edit and
  keeps what it has built. -/
  | keepBlend (age : Nat) (built : Snapshot)

namespace Course

variable {v : View Id} {c : Course}

/-- The course after a source was edited in place. -/
def edited (c : Course) (w : Writable) : Course :=
  ⟨c.store.edited w, c.past.map fun set => set.edited w.toSource⟩

/-- The course after an act. What a reading has built of blended values is of the version that it
reads, and may be anything else. -/
def act (v : View Id) (c : Course) : Act → Course
  | .access a => c.access v a
  | .edit w => c.edited w
  | .keepBlend age built =>
    match c.past[age]? with
    | none => c
    | some set => c.moved (c.store.keep { built with version := set.version })

/-- The course after some acts. -/
def afterActs (v : View Id) (c : Course) (acts : List Act) : Course := acts.foldl (act v) c

@[simp] theorem version_edited (c : Course) (w : Writable) :
    (c.edited w).store.version = c.store.version := rfl

namespace Ordered

theorem edited (h : c.Ordered) (w : Writable) : (c.edited w).Ordered where
  published := by
    show (c.past.map _).head? = _
    rw [List.head?_map, h.published]
    rfl
  descending := List.pairwise_map.2 h.descending

theorem act (h : c.Ordered) (v : View Id) (a : Act) : (c.act v a).Ordered := by
  cases a with
  | access a => exact h.access v a
  | edit w => exact h.edited w
  | keepBlend age built =>
    simp only [Course.act]
    split
    · exact h
    · exact h.staying (Store.published_keep _ _)

/-- Versions stay in order, whatever is done to a context and to its sources. -/
theorem afterActs (h : c.Ordered) (v : View Id) (acts : List Act) :
    (c.afterActs v acts).Ordered := by
  induction acts generalizing c with
  | nil => exact h
  | cons a rest ih => exact ih (h.act v a)

/-- Without edits the snapshot is the build of the published set, if nothing of its version was kept
in the beginning. -/
theorem snapshot_after_eq_build (h : c.Ordered) {accesses : List Access}
    (hkept : ∀ kept, c.store.cached = some kept →
      kept.version ≠ (c.after v accesses).store.version) :
    (c.after v accesses).store.snapshot v =
      (v.build (c.after v accesses).store.published).run := by
  have hordered := h.after v accesses
  refine Store.snapshot_eq_build_of_current fun kept hk hv => ?_
  rcases kept_after hk with hk | ⟨set, hmem, rfl⟩
  · exact absurd hv (hkept kept hk)
  · rw [hordered.eq_of_version hmem hordered.published_mem hv]

end Ordered

end Course

end LayeredConfig
