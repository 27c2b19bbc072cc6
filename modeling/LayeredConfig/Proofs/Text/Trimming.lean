import LayeredConfig.Text.Characters
import LayeredConfig.Text.Lines
import Mathlib.Data.List.DropRight
import Mathlib.Data.List.TakeWhile

/-! # Trimmed texts and lines

A text is some blanks, what trimming leaves of it, and some blanks (`exists_eq_trim`). What is left
has no blank at either end, and the texts that have none are those that trimming leaves as they are
(`trim_eq_self_iff`).

The lines of a document are counted without their ends: a line feed with an optional carriage return
in front of it. What follows the last line feed is a line if there is anything (`documentLines`). -/

namespace LayeredConfig.Text

/-! ### Trimming -/

/-- Whether a text has no blank at either end. -/
structure IsTrimmed (cs : List Char) : Prop where
  head : ∀ c ∈ cs.head?, isBlank c = false
  last : ∀ c ∈ cs.getLast?, isBlank c = false

theorem trimEnd_eq_rdropWhile (cs : List Char) : trimEnd cs = cs.rdropWhile isBlank := rfl

theorem trimEnd_append {as bs : List Char} (hb : ∀ c ∈ bs, isBlank c = true) :
    trimEnd (as ++ bs) = trimEnd as := by
  unfold trimEnd
  rw [List.reverse_append, List.dropWhile_append_of_pos fun c hc => hb c (List.mem_reverse.1 hc)]

/-- Blanks at the ends make no difference. -/
theorem trim_append {as cs bs : List Char} (ha : ∀ c ∈ as, isBlank c = true)
    (hb : ∀ c ∈ bs, isBlank c = true) : trim (as ++ (cs ++ bs)) = trim cs := by
  unfold trim
  rw [List.dropWhile_append_of_pos ha, List.dropWhile_append]
  split
  · rename_i hempty
    rw [List.dropWhile_eq_nil_iff.2 hb, List.isEmpty_iff.1 hempty]
  · exact trimEnd_append hb

/-- A text is what trimming leaves of it, between blanks. -/
theorem exists_eq_trim (cs : List Char) :
    ∃ as bs, cs = as ++ (trim cs ++ bs) ∧ (∀ c ∈ as, isBlank c = true) ∧
      ∀ c ∈ bs, isBlank c = true := by
  refine ⟨cs.takeWhile isBlank, (cs.dropWhile isBlank).rtakeWhile isBlank, ?_,
    fun c => List.mem_takeWhile_imp, fun c => List.mem_rtakeWhile_imp⟩
  unfold trim
  rw [trimEnd_eq_rdropWhile, List.rdropWhile_append_rtakeWhile, List.takeWhile_append_dropWhile]

theorem mem_of_mem_trim {c : Char} {cs : List Char} (h : c ∈ trim cs) : c ∈ cs := by
  obtain ⟨as, bs, hcs, -⟩ := exists_eq_trim cs
  rw [hcs]
  exact List.mem_append_right _ (List.mem_append_left _ h)

theorem isBlank_of_head?_dropWhile {cs : List Char} {c : Char}
    (h : (cs.dropWhile isBlank).head? = some c) : isBlank c = false := by
  have hne := List.head?_dropWhile_not isBlank cs
  rw [h] at hne
  exact hne

/-- Trimming leaves no blank at either end. -/
theorem isTrimmed_trim (cs : List Char) : IsTrimmed (trim cs) where
  head c hc := by
    obtain ⟨bs, hbs⟩ := List.rdropWhile_prefix isBlank (cs.dropWhile isBlank)
    refine @isBlank_of_head?_dropWhile cs c ?_
    rw [← hbs]
    exact List.mem_head?_append_of_mem_head? hc
  last c hc := by
    unfold trim trimEnd at hc
    rw [List.getLast?_reverse] at hc
    exact isBlank_of_head?_dropWhile hc

/-- What has no blank at either end is left as it is. -/
theorem trim_eq_self_iff {cs : List Char} : trim cs = cs ↔ IsTrimmed cs := by
  refine ⟨fun h => h ▸ isTrimmed_trim cs, fun h => ?_⟩
  have hfirst : ∀ {xs : List Char}, (∀ c ∈ xs.head?, isBlank c = false) →
      xs.dropWhile isBlank = xs := by
    intro xs hxs
    cases xs with
    | nil => rfl
    | cons x xs => exact List.dropWhile_cons_of_neg (by simp [hxs x rfl])
  unfold trim trimEnd
  rw [hfirst h.head, hfirst fun c hc => h.last c (by rwa [List.head?_reverse] at hc),
    List.reverse_reverse]

/-- A text that begins with no blank keeps its beginning. -/
theorem head?_trim {cs : List Char} (h : ∀ c ∈ cs.head?, isBlank c = false) (hne : trim cs ≠ []) :
    (trim cs).head? = cs.head? := by
  obtain ⟨as, bs, hcs, has, -⟩ := exists_eq_trim cs
  cases as with
  | nil =>
    rw [List.nil_append] at hcs
    rw [congrArg List.head? hcs, List.head?_append_of_ne_nil _ hne]
  | cons a as =>
    have ha : isBlank a = false := h a (by rw [hcs]; rfl)
    exact absurd (has a List.mem_cons_self) (by simp [ha])

/-! ### Lines of documents -/

/-- A line without the carriage return at its end. -/
def withoutReturn (line : List Char) : List Char :=
  if line.getLast? = some '\r' then line.dropLast else line

theorem trim_withoutReturn (line : List Char) : trim (withoutReturn line) = trim line := by
  unfold withoutReturn
  split
  · rename_i hlast
    obtain ⟨front, rfl⟩ := List.getLast?_eq_some_iff.1 hlast
    have hblank : ∀ c ∈ ['\r'], isBlank c = true := List.forall_mem_singleton.2 rfl
    rw [List.dropLast_concat]
    exact (@trim_append [] front _ nofun hblank).symm
  · rfl

/-- The lines among the pieces between line feeds. -/
def linesOfPieces : List (List Char) → List (List Char)
  | [] => []
  | [last] => if last = [] then [] else [last]
  | line :: rest => withoutReturn line :: linesOfPieces rest

/-- The lines of a document, without their ends. -/
def documentLines (cs : List Char) : List (List Char) := linesOfPieces (lines cs)

theorem lines_cons {line : List Char} (h : '\n' ∉ line) (cs : List Char) :
    lines (line ++ '\n' :: cs) = line :: lines cs := by
  unfold lines
  rw [pieces_append, pieces_of_not_mem h]
  rfl

theorem lines_flatMap {ls : List (List Char)} (h : ∀ line ∈ ls, '\n' ∉ line) :
    lines (ls.flatMap (· ++ ['\n'])) = ls ++ [[]] := by
  induction ls with
  | nil => rfl
  | cons line ls ih =>
    obtain ⟨hline, hrest⟩ := List.forall_mem_cons.1 h
    rw [List.flatMap_cons, List.append_assoc, List.singleton_append, lines_cons hline, ih hrest]
    rfl

end LayeredConfig.Text
