/-! # Pieces, lines and cuts

A text as its pieces between separators, which `glue` puts together again, and the cut of a text at
the first character of a kind. -/

namespace LayeredConfig.Text

/-- The pieces of a text between the separators; there is one more of them than of separators. -/
def pieces (sep : Char) : List Char → List (List Char)
  | [] => [[]]
  | c :: cs =>
    if c = sep then [] :: pieces sep cs
    else
      match pieces sep cs with
      | [] => [[c]]
      | piece :: rest => (c :: piece) :: rest

/-- The lines of a text, without their line feeds. The last one may be empty. -/
def lines (cs : List Char) : List (List Char) := pieces '\n' cs

/-- The text whose pieces are given. -/
def glue (sep : Char) : List (List Char) → List Char
  | [] => []
  | [piece] => piece
  | piece :: rest => piece ++ sep :: glue sep rest

/-- What stands before and behind the first character that satisfies `p`. -/
def cutAt? (p : Char → Bool) : List Char → Option (List Char × List Char)
  | [] => none
  | c :: cs => if p c then some ([], cs) else (cutAt? p cs).map fun r => (c :: r.1, r.2)

/-- What follows a given beginning. -/
def after? : List Char → List Char → Option (List Char)
  | [], cs => some cs
  | _ :: _, [] => none
  | b :: bs, c :: cs => if b = c then after? bs cs else none

theorem pieces_ne_nil (sep : Char) (cs : List Char) : pieces sep cs ≠ [] := by
  cases cs with
  | nil => simp [pieces]
  | cons c cs =>
    simp only [pieces]
    split
    · simp
    · split <;> simp

theorem glue_pieces (sep : Char) (cs : List Char) : glue sep (pieces sep cs) = cs := by
  induction cs with
  | nil => rfl
  | cons c cs ih =>
    simp only [pieces]
    split
    · rename_i hc
      subst hc
      match h : pieces c cs with
      | [] => exact absurd h (pieces_ne_nil c cs)
      | piece :: rest => simp [glue, ← h, ih]
    · match h : pieces sep cs with
      | [] => exact absurd h (pieces_ne_nil sep cs)
      | [piece] => rw [h] at ih; simpa [glue] using ih
      | piece :: next :: rest => rw [h] at ih; simpa [glue] using ih

theorem glue_eq_intercalate (sep : Char) (ps : List (List Char)) :
    glue sep ps = [sep].intercalate ps := by
  fun_induction glue sep ps with
  | case1 => rfl
  | case2 piece => simp
  | case3 piece rest hrest ih =>
    cases rest with
    | nil => exact (hrest rfl).elim
    | cons next rest =>
      rw [List.intercalate_cons_cons, ih, List.append_assoc, List.singleton_append]

/-- A separator cuts a text into what it is cut into before and behind. -/
theorem pieces_append (sep : Char) (as bs : List Char) :
    pieces sep (as ++ sep :: bs) = pieces sep as ++ pieces sep bs := by
  induction as with
  | nil => simp [pieces]
  | cons a as ih =>
    by_cases ha : a = sep
    · simp [pieces, ha, ih]
    · simp only [List.cons_append, pieces, ha, if_false, ih]
      match h : pieces sep as with
      | [] => exact absurd h (pieces_ne_nil sep as)
      | piece :: rest => rfl

/-- There is no separator within a piece. -/
theorem not_mem_of_mem_pieces {sep : Char} {cs piece : List Char} (h : piece ∈ pieces sep cs) :
    sep ∉ piece := by
  induction cs generalizing piece with
  | nil => simp_all [pieces]
  | cons c cs ih =>
    simp only [pieces] at h
    split at h
    · rcases List.mem_cons.1 h with rfl | h
      · exact List.not_mem_nil
      · exact ih h
    · rename_i hc
      match hcs : pieces sep cs with
      | [] => exact absurd hcs (pieces_ne_nil sep cs)
      | first :: rest =>
        rw [hcs] at h ih
        rcases List.mem_cons.1 h with rfl | h
        · simp [Ne.symm hc, ih List.mem_cons_self]
        · exact ih (List.mem_cons_of_mem _ h)

theorem pieces_of_not_mem {sep : Char} {cs : List Char} (h : sep ∉ cs) : pieces sep cs = [cs] := by
  induction cs with
  | nil => rfl
  | cons c cs ih =>
    obtain ⟨hc, hcs⟩ := not_or.1 (mt List.mem_cons.2 h)
    simp [pieces, Ne.symm hc, ih hcs]

theorem cutAt?_eq_some {p : Char → Bool} {cs before behind : List Char}
    (h : cutAt? p cs = some (before, behind)) :
    ∃ c, p c = true ∧ (∀ x ∈ before, p x = false) ∧ cs = before ++ c :: behind := by
  induction cs generalizing before with
  | nil => simp [cutAt?] at h
  | cons c cs ih =>
    by_cases hc : p c = true
    · simp [cutAt?, hc] at h
      obtain ⟨rfl, rfl⟩ := h
      exact ⟨c, hc, by simp, rfl⟩
    · simp only [cutAt?, hc, Bool.false_eq_true, if_false, Option.map_eq_some_iff] at h
      obtain ⟨⟨l, r⟩, hl, he⟩ := h
      simp only [Prod.mk.injEq] at he
      obtain ⟨rfl, rfl⟩ := he
      obtain ⟨d, hd, hx, rfl⟩ := ih hl
      exact ⟨d, hd, List.forall_mem_cons.2 ⟨by simpa using hc, hx⟩, rfl⟩

theorem cutAt?_eq_none {p : Char → Bool} {cs : List Char} :
    cutAt? p cs = none ↔ ∀ c ∈ cs, p c = false := by
  induction cs with
  | nil => simp [cutAt?]
  | cons c cs ih => by_cases hc : p c = true <;> simp [cutAt?, hc, ih]

theorem cutAt?_append {p : Char → Bool} {before : List Char} {c : Char}
    (hb : ∀ x ∈ before, p x = false) (hc : p c = true) (behind : List Char) :
    cutAt? p (before ++ c :: behind) = some (before, behind) := by
  induction before with
  | nil => simp [cutAt?, hc]
  | cons x before ih =>
    obtain ⟨hx, hb⟩ := List.forall_mem_cons.1 hb
    simp [cutAt?, hx, ih hb]

/-- A text is cut at the first of the characters that are the separator. -/
theorem cutAt?_char_eq_some_iff {sep : Char} {cs before behind : List Char} :
    cutAt? (· = sep) cs = some (before, behind) ↔ sep ∉ before ∧ cs = before ++ sep :: behind := by
  constructor
  · intro h
    obtain ⟨c, hc, hbefore, rfl⟩ := cutAt?_eq_some h
    rw [of_decide_eq_true hc]
    exact ⟨fun hmem => of_decide_eq_false (hbefore _ hmem) rfl, rfl⟩
  · rintro ⟨hbefore, rfl⟩
    refine cutAt?_append (fun c hc => decide_eq_false ?_) (by simp) behind
    rintro rfl
    exact hbefore hc

theorem cutAt?_char_eq_none_iff {sep : Char} {cs : List Char} :
    cutAt? (· = sep) cs = none ↔ sep ∉ cs := by
  rw [cutAt?_eq_none]
  refine ⟨fun h hmem => of_decide_eq_false (h _ hmem) rfl, fun h c hc => decide_eq_false ?_⟩
  rintro rfl
  exact h hc

theorem after?_eq_some {bs cs rest : List Char} : after? bs cs = some rest ↔ cs = bs ++ rest := by
  induction bs generalizing cs with
  | nil => simp [after?, eq_comm]
  | cons b bs ih =>
    cases cs with
    | nil => simp [after?]
    | cons c cs =>
      by_cases hb : b = c
      · subst hb; simp [after?, ih]
      · simp [after?, hb, Ne.symm hb]

end LayeredConfig.Text
