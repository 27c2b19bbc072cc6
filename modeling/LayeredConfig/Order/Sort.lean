/-! # Sorting

Stable sorting by insertion: elements that are equal in order keep their places relative to each
other. The recursion follows the list, so sorted lists can be computed in proofs. -/

namespace LayeredConfig.Order

variable {α : Type u} (le : α → α → Bool)

/-- Puts an element in front of the first one that is not below it. -/
def insertSorted (x : α) : List α → List α
  | [] => [x]
  | y :: ys => if le x y then x :: y :: ys else y :: insertSorted x ys

/-- Sorts a list. -/
def sort : List α → List α
  | [] => []
  | x :: xs => insertSorted le x (sort xs)

variable {le}

theorem insertSorted_perm (x : α) (ys : List α) : (insertSorted le x ys).Perm (x :: ys) := by
  induction ys with
  | nil => exact .refl _
  | cons y ys ih =>
    simp only [insertSorted]
    split
    · exact .refl _
    · exact (ih.cons y).trans (List.Perm.swap x y ys)

theorem sort_perm (xs : List α) : (sort le xs).Perm xs := by
  induction xs with
  | nil => exact .refl _
  | cons x xs ih => exact (insertSorted_perm x _).trans (ih.cons x)

theorem mem_sort {x : α} {xs : List α} : x ∈ sort le xs ↔ x ∈ xs := (sort_perm xs).mem_iff

/-- What a comparison must satisfy to sort by it. -/
structure Preorder (le : α → α → Bool) : Prop where
  trans : ∀ a b c, le a b = true → le b c = true → le a c = true
  total : ∀ a b, le a b = true ∨ le b a = true

theorem pairwise_insertSorted (h : Preorder le) (x : α) {ys : List α}
    (hs : ys.Pairwise fun a b => le a b = true) :
    (insertSorted le x ys).Pairwise fun a b => le a b = true := by
  induction ys with
  | nil => simp [insertSorted]
  | cons y ys ih =>
    obtain ⟨hd, tl⟩ := List.pairwise_cons.1 hs
    simp only [insertSorted]
    split
    · rename_i hle
      refine List.pairwise_cons.2 ⟨fun z hz => ?_, hs⟩
      rcases List.mem_cons.1 hz with rfl | hz
      · exact hle
      · exact h.trans _ _ _ hle (hd z hz)
    · rename_i hle
      refine List.pairwise_cons.2 ⟨fun z hz => ?_, ih tl⟩
      rcases List.mem_cons.1 ((insertSorted_perm x ys).mem_iff.1 hz) with rfl | hz
      · exact (h.total y z).resolve_right hle
      · exact hd z hz

theorem pairwise_sort (h : Preorder le) (xs : List α) :
    (sort le xs).Pairwise fun a b => le a b = true := by
  induction xs with
  | nil => exact .nil
  | cons x xs ih => exact pairwise_insertSorted h x ih

/-- Sorting a sorted list changes nothing. -/
theorem sort_eq_self {xs : List α} (hs : xs.Pairwise fun a b => le a b = true) :
    sort le xs = xs := by
  induction xs with
  | nil => rfl
  | cons x xs ih =>
    obtain ⟨hd, tl⟩ := List.pairwise_cons.1 hs
    rw [sort, ih tl]
    cases xs with
    | nil => rfl
    | cons y ys => rw [insertSorted, if_pos (hd y List.mem_cons_self)]

/-- Elements that are equal if each is at most the other, given in any order, are sorted in one
way. -/
theorem sort_eq_of_perm (h : Preorder le) {xs ys : List α} (hp : xs.Perm ys)
    (hanti : ∀ a ∈ xs, ∀ b ∈ xs, le a b = true → le b a = true → a = b) :
    sort le xs = sort le ys := by
  refine List.Perm.eq_of_pairwise (fun a b ha hb => ?_) (pairwise_sort h xs) (pairwise_sort h ys)
    ((sort_perm xs).trans (hp.trans (sort_perm ys).symm))
  exact hanti a (mem_sort.1 ha) b (hp.mem_iff.2 (mem_sort.1 hb))

/-! ### Sorting a part of a list -/

theorem insertSorted_eq_cons {x : α} {ys : List α} (h : ∀ y ∈ ys, le x y = true) :
    insertSorted le x ys = x :: ys := by
  cases ys with
  | nil => rfl
  | cons y ys => rw [insertSorted, if_pos (h y List.mem_cons_self)]

theorem insertSorted_filter (h : Preorder le) (p : α → Bool) {x : α} (hx : p x = true)
    {ys : List α} (hs : ys.Pairwise fun a b => le a b = true) :
    insertSorted le x (ys.filter p) = (insertSorted le x ys).filter p := by
  induction ys with
  | nil => simp [insertSorted, hx]
  | cons y ys ih =>
    obtain ⟨hd, tl⟩ := List.pairwise_cons.1 hs
    by_cases hle : le x y = true
    · have hbelow : ∀ z ∈ (y :: ys).filter p, le x z = true := by
        intro z hz
        rcases List.mem_cons.1 (List.mem_filter.1 hz).1 with rfl | hz
        · exact hle
        · exact h.trans _ _ _ hle (hd z hz)
      rw [insertSorted_eq_cons hbelow, insertSorted, if_pos hle, List.filter_cons_of_pos hx]
    · have hstep : insertSorted le x (y :: ys) = y :: insertSorted le x ys := by
        rw [insertSorted, if_neg hle]
      rw [hstep]
      by_cases hy : p y = true
      · rw [List.filter_cons_of_pos hy, List.filter_cons_of_pos hy, ← ih tl, insertSorted,
          if_neg hle]
      · rw [List.filter_cons_of_neg hy, List.filter_cons_of_neg hy, ih tl]

theorem filter_insertSorted_of_neg (p : α → Bool) {x : α} (hx : p x = false) (ys : List α) :
    (insertSorted le x ys).filter p = ys.filter p := by
  induction ys with
  | nil => simp [insertSorted, hx]
  | cons y ys ih =>
    simp only [insertSorted]
    split
    · exact List.filter_cons_of_neg (by simp [hx])
    · simp only [List.filter_cons, ih]

/-- Sorting keeps the order of what it leaves in: a part of a list is sorted as in the whole. -/
theorem sort_filter (h : Preorder le) (p : α → Bool) (xs : List α) :
    sort le (xs.filter p) = (sort le xs).filter p := by
  induction xs with
  | nil => rfl
  | cons x xs ih =>
    cases hx : p x with
    | true =>
      rw [List.filter_cons_of_pos hx, sort, ih, insertSorted_filter h p hx (pairwise_sort h xs),
        sort]
    | false =>
      rw [List.filter_cons_of_neg (by simp [hx]), ih, sort, filter_insertSorted_of_neg p hx]

/-! ### Sorting what a list stands for -/

theorem insertSorted_map {β : Type v} (f : β → α) (x : β) (ys : List β) :
    insertSorted le (f x) (ys.map f) =
      (insertSorted (fun a b => le (f a) (f b)) x ys).map f := by
  induction ys with
  | nil => rfl
  | cons y ys ih =>
    simp only [List.map_cons, insertSorted]
    split
    · rfl
    · rw [ih, List.map_cons]

theorem sort_map {β : Type v} (f : β → α) (xs : List β) :
    sort le (xs.map f) = (sort (fun a b => le (f a) (f b)) xs).map f := by
  induction xs with
  | nil => rfl
  | cons x xs ih => rw [List.map_cons, sort, ih, insertSorted_map, sort]

end LayeredConfig.Order
