import LayeredConfig.Format.KeyValue
import LayeredConfig.Proofs.Text.Trimming

/-! # Documents of settings and their canonical form

What a line says is told apart from how it is read: it says nothing, it sets a key (`Sets`), or it
has a fault (`HasFault`), and reading it finds out which (`line_cases`, `readLine_eq_some_iff`). A
document is read line by line. It fails with its first line at fault (`readLines_eq_error_iff`), and
otherwise its settings are inserted in their order (`readLines_eq_ok_iff`), so that each key has what
is set last (`get?_insertAll_settings`).

What lines can set is canonical (`Sets.canonical`), and what is canonical can be written as a line
that sets it (`sets_printLine`). So canonical maps are what documents are read to, and written as
lines they are read to themselves again (`parse_retracts`). -/

namespace LayeredConfig.KeyValue

open LayeredConfig.Text

/-! ### What a line says -/

/-- Whether a line is blank or a comment. -/
def SaysNothing (line : List Char) : Prop :=
  trim line = [] ∨ ∃ rest, trim line = '#' :: rest ∨ trim line = '!' :: rest

/-- The cut of a line at its first separator. -/
structure CutsAt (line before : List Char) (separator : Char) (behind : List Char) : Prop where
  speaks : ¬ SaysNothing line
  line_eq : trim line = before ++ separator :: behind
  isSeparator : separator = '=' ∨ separator = ':'
  first : '=' ∉ before ∧ ':' ∉ before

/-- Whether a line sets a key to a value. -/
def Sets (line : List Char) (key value : String) : Prop :=
  ∃ before separator behind, CutsAt line before separator behind ∧ trim before ≠ [] ∧
    key = String.ofList (trim before) ∧ value = String.ofList (trim behind)

/-- Whether a line has a fault. -/
def HasFault (line : List Char) : LineFault → Prop
  | .noSeparator => ¬ SaysNothing line ∧ '=' ∉ trim line ∧ ':' ∉ trim line
  | .emptyKey => ∃ before separator behind, CutsAt line before separator behind ∧ trim before = []

theorem isSeparator_iff {c : Char} : isSeparator c = true ↔ c = '=' ∨ c = ':' := by
  unfold KeyValue.isSeparator
  rw [Bool.or_eq_true, decide_eq_true_eq, decide_eq_true_eq]

theorem forall_not_isSeparator_iff {cs : List Char} :
    (∀ c ∈ cs, isSeparator c = false) ↔ '=' ∉ cs ∧ ':' ∉ cs := by
  constructor
  · intro h
    exact ⟨fun hmem => absurd (h _ hmem) (by decide), fun hmem => absurd (h _ hmem) (by decide)⟩
  · rintro ⟨hequals, hcolon⟩ c hc
    refine Bool.eq_false_iff.2 fun hsep => ?_
    rcases isSeparator_iff.1 hsep with rfl | rfl
    · exact hequals hc
    · exact hcolon hc

theorem isSilent_iff {line : List Char} : isSilent (trim line) = true ↔ SaysNothing line := by
  unfold SaysNothing
  cases trim line with
  | nil => simp [isSilent]
  | cons c cs => simp [isSilent, exists_or]

theorem isSilent_eq_false {line : List Char} (h : ¬ SaysNothing line) :
    isSilent (trim line) = false :=
  Bool.eq_false_iff.2 (mt isSilent_iff.1 h)

/-- A line that says something has a separator, and there it is cut, or it has none. -/
theorem cutAt?_trim_eq_some_iff {line before behind : List Char} (h : ¬ SaysNothing line) :
    cutAt? isSeparator (trim line) = some (before, behind) ↔
      ∃ separator, CutsAt line before separator behind := by
  constructor
  · intro hcut
    obtain ⟨separator, hsep, hbefore, hline⟩ := cutAt?_eq_some hcut
    exact ⟨separator, h, hline, isSeparator_iff.1 hsep, forall_not_isSeparator_iff.1 hbefore⟩
  · rintro ⟨separator, -, hline, hsep, hbefore⟩
    rw [hline]
    exact cutAt?_append (forall_not_isSeparator_iff.2 hbefore) (isSeparator_iff.2 hsep) behind

theorem readLine_of_saysNothing {line : List Char} (h : SaysNothing line) :
    readLine line = .ok none := by
  unfold readLine
  exact if_pos (isSilent_iff.2 h)

theorem readLine_of_sets {line : List Char} {key value : String} (h : Sets line key value) :
    readLine line = .ok (some (key, value)) := by
  obtain ⟨before, separator, behind, hcut, hkey, rfl, rfl⟩ := h
  unfold readLine
  simp only [isSilent_eq_false hcut.speaks, Bool.false_eq_true, if_false,
    (cutAt?_trim_eq_some_iff hcut.speaks).2 ⟨separator, hcut⟩, if_neg hkey]

theorem readLine_of_hasFault {line : List Char} {fault : LineFault} (h : HasFault line fault) :
    readLine line = .error fault := by
  unfold readLine
  cases fault with
  | noSeparator =>
    obtain ⟨hspeaks, hnone⟩ := h
    simp only [isSilent_eq_false hspeaks, Bool.false_eq_true, if_false,
      cutAt?_eq_none.2 (forall_not_isSeparator_iff.2 hnone)]
  | emptyKey =>
    obtain ⟨before, separator, behind, hcut, hkey⟩ := h
    simp only [isSilent_eq_false hcut.speaks, Bool.false_eq_true, if_false,
      (cutAt?_trim_eq_some_iff hcut.speaks).2 ⟨separator, hcut⟩, if_pos hkey]

/-- A line says nothing, sets a key or has a fault. -/
theorem line_cases (line : List Char) :
    SaysNothing line ∨ (∃ key value, Sets line key value) ∨ ∃ fault, HasFault line fault := by
  by_cases hspeaks : SaysNothing line
  · exact .inl hspeaks
  · refine .inr ?_
    cases hcut : cutAt? isSeparator (trim line) with
    | none =>
      exact .inr ⟨.noSeparator, hspeaks, forall_not_isSeparator_iff.1 (cutAt?_eq_none.1 hcut)⟩
    | some cut =>
      obtain ⟨before, behind⟩ := cut
      obtain ⟨separator, hcuts⟩ := (cutAt?_trim_eq_some_iff hspeaks).1 hcut
      by_cases hkey : trim before = []
      · exact .inr ⟨.emptyKey, before, separator, behind, hcuts, hkey⟩
      · exact .inl ⟨_, _, before, separator, behind, hcuts, hkey, rfl, rfl⟩

theorem readLine_eq_some_iff {line : List Char} {key value : String} :
    readLine line = .ok (some (key, value)) ↔ Sets line key value := by
  refine ⟨fun h => ?_, readLine_of_sets⟩
  rcases line_cases line with hnothing | ⟨key', value', hsets⟩ | ⟨fault, hfault⟩
  · cases (readLine_of_saysNothing hnothing).symm.trans h
  · cases (readLine_of_sets hsets).symm.trans h
    exact hsets
  · cases (readLine_of_hasFault hfault).symm.trans h

theorem SaysNothing.not_hasFault {line : List Char} (h : SaysNothing line) (fault : LineFault) :
    ¬ HasFault line fault := by
  intro hfault
  cases (readLine_of_saysNothing h).symm.trans (readLine_of_hasFault hfault)

theorem Sets.not_hasFault {line : List Char} {key value : String} (h : Sets line key value)
    (fault : LineFault) : ¬ HasFault line fault := by
  intro hfault
  cases (readLine_of_sets h).symm.trans (readLine_of_hasFault hfault)

/-! ### Documents line by line -/

/-- Whether the last of the lines that set a key sets it to a value. -/
def LastSets (ls : List (List Char)) (key value : String) : Prop :=
  ∃ before line after, ls = before ++ line :: after ∧ Sets line key value ∧
    ∀ l ∈ after, ∀ w, ¬ Sets l key w

/-- Whether the line behind some lines is the first one at fault. -/
def FirstFault (ls before : List (List Char)) (fault : LineFault) : Prop :=
  ∃ line after, ls = before ++ line :: after ∧ HasFault line fault ∧
    ∀ l ∈ before, ∀ f, ¬ HasFault l f

/-- The setting on a line, if it has one and no fault. -/
def setting? (line : List Char) : Option (String × String) := (readLine line).toOption.join

theorem setting?_eq_some_iff {line : List Char} {key value : String} :
    setting? line = some (key, value) ↔ Sets line key value := by
  rw [← readLine_eq_some_iff]
  unfold setting?
  cases readLine line <;> simp [Except.toOption]

theorem setting?_eq_none_iff {line : List Char} :
    setting? line = none ↔ ∀ key value, ¬ Sets line key value := by
  simp only [← setting?_eq_some_iff, Option.eq_none_iff_forall_ne_some, Prod.forall, ne_eq]

section lines

variable {n : Nat} {pairs m : Properties} {line : List Char} {ls : List (List Char)}

/-- A line without a fault adds its setting and is done with. -/
theorem readLines_cons (h : ∀ fault, ¬ HasFault line fault) :
    readLines n pairs (line :: ls) =
      readLines (n + 1) (pairs.insertAll (setting? line).toList) ls := by
  rcases line_cases line with hnothing | ⟨key, value, hsets⟩ | ⟨fault, hfault⟩
  · simp [readLines, setting?, readLine_of_saysNothing hnothing, Except.toOption, KeyMap.insertAll]
  · simp [readLines, setting?, readLine_of_sets hsets, Except.toOption, KeyMap.insertAll]
  · exact absurd hfault (h fault)

theorem readLines_eq_ok_iff :
    readLines n pairs ls = .ok m ↔
      (∀ line ∈ ls, ∀ fault, ¬ HasFault line fault) ∧
        m = pairs.insertAll (ls.filterMap setting?) := by
  induction ls generalizing n pairs with
  | nil => simp [readLines, KeyMap.insertAll, eq_comm]
  | cons line ls ih =>
    by_cases hline : ∃ fault, HasFault line fault
    · obtain ⟨fault, hfault⟩ := hline
      simp only [readLines, readLine_of_hasFault hfault, reduceCtorEq, false_iff]
      exact fun h => h.1 line List.mem_cons_self fault hfault
    · rw [readLines_cons (not_exists.1 hline), ih, List.forall_mem_cons]
      have hinsert : (pairs.insertAll (setting? line).toList).insertAll (ls.filterMap setting?) =
          pairs.insertAll ((line :: ls).filterMap setting?) := by
        unfold KeyMap.insertAll
        rw [← List.foldl_append]
        cases hsetting : setting? line <;> simp [hsetting]
      simp only [hinsert, not_exists.1 hline, not_false_eq_true, implies_true, true_and]

theorem firstFault_cons {before : List (List Char)} {fault : LineFault} :
    FirstFault (line :: ls) before fault ↔
      before = [] ∧ HasFault line fault ∨
        ∃ rest, before = line :: rest ∧ (∀ f, ¬ HasFault line f) ∧ FirstFault ls rest fault := by
  unfold FirstFault
  cases before with
  | nil => simp
  | cons first rest =>
    simp only [List.cons_append, List.cons.injEq, List.forall_mem_cons]
    constructor
    · rintro ⟨l, after, ⟨rfl, rfl⟩, hfault, hfirst, hrest⟩
      exact .inr ⟨rest, ⟨rfl, rfl⟩, hfirst, l, after, rfl, hfault, hrest⟩
    · rintro (⟨⟨⟩, -⟩ | ⟨rest, ⟨rfl, rfl⟩, hfirst, l, after, rfl, hfault, hrest⟩)
      exact ⟨l, after, ⟨rfl, rfl⟩, hfault, hfirst, hrest⟩

/-- Reading fails at the first line at fault, and says which one it is. -/
theorem readLines_eq_error_iff {i : Nat} {fault : LineFault} :
    readLines n pairs ls = .error (i, fault) ↔
      ∃ before, FirstFault ls before fault ∧ i = n + before.length := by
  induction ls generalizing n pairs with
  | nil => simp [readLines, FirstFault]
  | cons line ls ih =>
    simp only [firstFault_cons]
    by_cases hline : ∃ fault, HasFault line fault
    · obtain ⟨own, hown⟩ := hline
      simp only [readLines, readLine_of_hasFault hown, Except.error.injEq, Prod.mk.injEq]
      constructor
      · rintro ⟨rfl, rfl⟩
        exact ⟨[], .inl ⟨rfl, hown⟩, rfl⟩
      · rintro ⟨before, ⟨rfl, hfault⟩ | ⟨rest, -, hnone, -⟩, rfl⟩
        · have heq := (readLine_of_hasFault hown).symm.trans (readLine_of_hasFault hfault)
          exact ⟨rfl, Except.error.inj heq⟩
        · exact absurd hown (hnone own)
    · rw [readLines_cons (not_exists.1 hline), ih]
      constructor
      · rintro ⟨before, hfirst, rfl⟩
        exact ⟨line :: before, .inr ⟨before, rfl, not_exists.1 hline, hfirst⟩,
          by rw [List.length_cons]; omega⟩
      · rintro ⟨before, ⟨rfl, hfault⟩ | ⟨rest, rfl, -, hfirst⟩, rfl⟩
        · exact absurd ⟨fault, hfault⟩ hline
        · exact ⟨rest, hfirst, by rw [List.length_cons]; omega⟩

/-- The last setting of a key is the one that counts. -/
theorem get?_insertAll_settings {key value : String} :
    ((∅ : Properties).insertAll (ls.filterMap setting?)).get? key = some value ↔
      LastSets ls key value := by
  rw [KeyMap.get?_insertAll, KeyMap.get?_empty, Option.or_none, ← List.filterMap_reverse,
    List.lookup_eq_some_iff]
  constructor
  · rintro ⟨ahead, behind, heq, hahead⟩
    obtain ⟨after, front, hls, rfl, hfront⟩ := List.filterMap_eq_append_iff.1 heq
    obtain ⟨silent, line, before, rfl, hsilent, hline, -⟩ := List.filterMap_eq_cons_iff.1 hfront
    refine ⟨before.reverse, line, (after ++ silent).reverse, ?_, setting?_eq_some_iff.1 hline, ?_⟩
    · rw [← List.reverse_reverse ls, hls]
      simp
    · intro l hl w hsets
      rcases List.mem_append.1 (List.mem_reverse.1 hl) with hl | hl
      · have hmem := List.mem_filterMap.2 ⟨l, hl, setting?_eq_some_iff.2 hsets⟩
        simpa using hahead _ hmem
      · exact setting?_eq_none_iff.1 (hsilent l hl) key w hsets
  · rintro ⟨before, line, after, rfl, hsets, hafter⟩
    refine ⟨after.reverse.filterMap setting?, before.reverse.filterMap setting?, ?_, ?_⟩
    · simp [setting?_eq_some_iff.2 hsets]
    · rintro ⟨other, w⟩ hmem
      obtain ⟨l, hl, hsetting⟩ := List.mem_filterMap.1 hmem
      refine bne_iff_ne.2 ?_
      rintro rfl
      exact hafter l (List.mem_reverse.1 hl) w (setting?_eq_some_iff.1 hsetting)

end lines

/-- The carriage returns at the ends of lines make no difference, and neither does an empty last
line. -/
theorem readLines_linesOfPieces (n : Nat) (pairs : Properties) (ls : List (List Char)) :
    readLines n pairs (linesOfPieces ls) = readLines n pairs ls := by
  have hreturn : ∀ line, readLine (withoutReturn line) = readLine line := fun line => by
    unfold readLine
    rw [trim_withoutReturn]
  fun_induction linesOfPieces ls generalizing n pairs with
  | case1 => rfl
  | case2 => rfl
  | case3 last hlast => rfl
  | case4 line rest hrest ih => simp only [readLines, hreturn, ih]

theorem read_eq (text : String) : read text = readLines 1 ∅ (documentLines text.toList) :=
  (readLines_linesOfPieces 1 ∅ _).symm

/-! ### Canonical maps -/

/-- The keys that a document can set. -/
structure IsKey (key : String) : Prop where
  nonempty : key ≠ ""
  trimmed : IsTrimmed key.toList
  plain : '=' ∉ key.toList ∧ ':' ∉ key.toList ∧ '\n' ∉ key.toList
  speaks : key.toList.head? ≠ some '#' ∧ key.toList.head? ≠ some '!'

/-- The values that a document can set a key to. -/
structure IsValue (value : String) : Prop where
  trimmed : IsTrimmed value.toList
  oneLine : '\n' ∉ value.toList

/-- Whether a map has such keys and values only. -/
def IsCanonical (m : Properties) : Prop :=
  ∀ key value, m.get? key = some value → IsKey key ∧ IsValue value

/-- A key and its value as a line. -/
def printLine (s : String × String) : List Char := s.1.toList ++ '=' :: s.2.toList

/-- The document of a map. -/
def print (m : Properties) : String :=
  String.ofList ((m.entries.map printLine).flatMap (· ++ ['\n']))

section canonical

variable {m : Properties} {line : List Char} {key value : String}

/-- The key begins where its line begins. -/
theorem CutsAt.head?_trim_before {before behind : List Char} {separator : Char}
    (h : CutsAt line before separator behind) (hkey : trim before ≠ []) :
    (trim before).head? = (trim line).head? := by
  have hne : before ≠ [] := fun hnil => hkey (hnil ▸ trim_nil)
  have hhead : (trim line).head? = before.head? := by
    rw [h.line_eq, List.head?_append_of_ne_nil _ hne]
  rw [hhead]
  exact head?_trim (fun c hc => (isTrimmed_trim line).head c (hhead ▸ hc)) hkey

theorem head?_trim_ne_of_speaks (h : ¬ SaysNothing line) :
    (trim line).head? ≠ some '#' ∧ (trim line).head? ≠ some '!' := by
  constructor <;> intro hhead <;> obtain ⟨rest, hrest⟩ := List.head?_eq_some_iff.1 hhead
  · exact h (.inr ⟨rest, .inl hrest⟩)
  · exact h (.inr ⟨rest, .inr hrest⟩)

/-- A line can set canonical keys and values only. -/
theorem Sets.canonical (h : Sets line key value) (hline : '\n' ∉ line) :
    IsKey key ∧ IsValue value := by
  obtain ⟨before, separator, behind, hcut, hkey, rfl, rfl⟩ := h
  have hnewline : '\n' ∉ before ++ separator :: behind := fun hmem =>
    hline (mem_of_mem_trim (hcut.line_eq ▸ hmem))
  constructor
  · refine ⟨fun hempty => hkey (by simpa using hempty), ?_, ⟨?_, ?_, ?_⟩, ?_⟩
    all_goals rw [String.toList_ofList]
    · exact isTrimmed_trim before
    · exact fun hmem => hcut.first.1 (mem_of_mem_trim hmem)
    · exact fun hmem => hcut.first.2 (mem_of_mem_trim hmem)
    · exact fun hmem => hnewline (List.mem_append_left _ (mem_of_mem_trim hmem))
    · rw [hcut.head?_trim_before hkey]
      exact head?_trim_ne_of_speaks hcut.speaks
  · refine ⟨?_, ?_⟩
    all_goals rw [String.toList_ofList]
    · exact isTrimmed_trim behind
    · exact fun hmem =>
        hnewline (List.mem_append_right _ (List.mem_cons_of_mem _ (mem_of_mem_trim hmem)))

/-- A canonical line is cut where it was put together: its key begins it, and its separator or its
value ends it. -/
theorem sets_printLine (hkey : IsKey key) (hvalue : IsValue value) :
    Sets (printLine (key, value)) key value := by
  obtain ⟨c, cs, hcs⟩ := List.exists_cons_of_ne_nil (mt String.toList_eq_nil_iff.1 hkey.nonempty)
  have htrim : trim (printLine (key, value)) = printLine (key, value) := by
    refine trim_eq_self_iff.2 ⟨fun d hd => hkey.trimmed.head d ?_, fun d hd => ?_⟩
    · simpa [printLine, hcs] using hd
    · unfold printLine at hd
      rw [List.getLast?_append_cons, List.getLast?_cons] at hd
      cases hlast : value.toList.getLast? with
      | none =>
        obtain rfl : '=' = d := by simpa [hlast] using hd
        rfl
      | some e =>
        obtain rfl : e = d := by simpa [hlast] using hd
        exact hvalue.trimmed.last e hlast
  have hspeaks : ¬ SaysNothing (printLine (key, value)) := by
    have hline : trim (printLine (key, value)) = c :: (cs ++ '=' :: value.toList) := by
      rw [htrim, printLine, hcs, List.cons_append]
    rintro (hnil | ⟨rest, hsharp | hmark⟩)
    · cases hline.symm.trans hnil
    · cases hline.symm.trans hsharp
      exact hkey.speaks.1 (congrArg List.head? hcs)
    · cases hline.symm.trans hmark
      exact hkey.speaks.2 (congrArg List.head? hcs)
  refine ⟨key.toList, '=', value.toList, ⟨hspeaks, htrim, .inl rfl, hkey.plain.1, hkey.plain.2.1⟩,
    ?_⟩
  rw [trim_eq_self_iff.2 hkey.trimmed, trim_eq_self_iff.2 hvalue.trimmed, String.ofList_toList,
    String.ofList_toList]
  exact ⟨mt String.toList_eq_nil_iff.1 hkey.nonempty, rfl, rfl⟩

theorem lines_print (h : IsCanonical m) :
    lines (print m).toList = m.entries.map printLine ++ [[]] := by
  unfold print
  rw [String.toList_ofList]
  refine lines_flatMap fun line hline => ?_
  obtain ⟨⟨key, value⟩, hs, rfl⟩ := List.mem_map.1 hline
  obtain ⟨hkey, hvalue⟩ := h key value (KeyMap.mem_entries_iff.1 hs)
  simp [printLine, hkey.plain.2.2, hvalue.oneLine]

/-- Reading what a canonical map is written as finds its entries again, in their order. -/
theorem read_print (h : IsCanonical m) : read (print m) = .ok m := by
  have hsets : ∀ s ∈ m.entries, Sets (printLine s) s.1 s.2 := by
    rintro ⟨key, value⟩ hs
    obtain ⟨hkey, hvalue⟩ := h key value (KeyMap.mem_entries_iff.1 hs)
    exact sets_printLine hkey hvalue
  have hsettings : (m.entries.map printLine ++ [[]]).filterMap setting? = m.entries := by
    have hmap : ∀ s ∈ m.entries, (setting? ∘ printLine) s = some s := fun s hs =>
      setting?_eq_some_iff.2 (hsets s hs)
    rw [List.filterMap_append, List.filterMap_map, List.filterMap_congr hmap, List.filterMap_some]
    exact List.append_nil _
  unfold read
  rw [lines_print h, readLines_eq_ok_iff, hsettings]
  refine ⟨fun line hline => ?_, ?_⟩
  · rcases List.mem_append.1 hline with hline | hline
    · obtain ⟨s, hs, rfl⟩ := List.mem_map.1 hline
      exact (hsets s hs).not_hasFault
    · cases List.mem_singleton.1 hline
      exact SaysNothing.not_hasFault (.inl rfl)
  · refine KeyMap.ext_get? fun key => ?_
    rw [KeyMap.get?_insertAll, KeyMap.lookup_reverse_entries, KeyMap.get?_empty, Option.or_none]

/-- A map that a document is read to has what its lines set last, and is canonical. -/
theorem of_read_eq_ok {text : String} (h : read text = .ok m) :
    IsCanonical m ∧
      ∀ key value, m.get? key = some value ↔ LastSets (documentLines text.toList) key value := by
  constructor
  · obtain ⟨-, rfl⟩ := readLines_eq_ok_iff.1 h
    intro key value hvalue
    obtain ⟨before, line, after, hlines, hsets, -⟩ := get?_insertAll_settings.1 hvalue
    refine hsets.canonical (@not_mem_of_mem_pieces '\n' text.toList line ?_)
    show line ∈ lines text.toList
    rw [hlines]
    exact List.mem_append_right _ List.mem_cons_self
  · obtain ⟨-, rfl⟩ := readLines_eq_ok_iff.1 ((read_eq text).symm.trans h)
    exact fun key value => get?_insertAll_settings

theorem parse_eq_ok_iff {origin text : String} : parse origin text = .ok m ↔ read text = .ok m := by
  unfold parse
  cases read text <;> simp

theorem parse_eq_error_iff {origin text : String} {error : ConfigError} :
    parse origin text = .error error ↔
      ∃ before fault, FirstFault (documentLines text.toList) before fault ∧
        error = .malformed origin (.said
          ("line " ++ toString (before.length + 1) ++ ": " ++ fault.message)) := by
  have hread : parse origin text = .error error ↔ ∃ i fault, read text = .error (i, fault) ∧
      error = .malformed origin (.said ("line " ++ toString i ++ ": " ++ fault.message)) := by
    unfold parse
    cases hcase : read text with
    | ok pairs => simp
    | error failure =>
      obtain ⟨i, fault⟩ := failure
      constructor
      · intro h
        exact ⟨i, fault, rfl, (Except.error.inj h).symm⟩
      · rintro ⟨j, other, heq, rfl⟩
        cases heq
        rfl
  simp only [hread, read_eq, readLines_eq_error_iff]
  constructor
  · rintro ⟨i, fault, ⟨before, hfirst, rfl⟩, rfl⟩
    exact ⟨before, fault, hfirst, by rw [Nat.add_comm]⟩
  · rintro ⟨before, fault, hfirst, rfl⟩
    exact ⟨1 + before.length, fault, ⟨before, hfirst, rfl⟩, by rw [Nat.add_comm]⟩

end canonical

/-- Canonical maps are what documents are read to, and written as lines they are read to themselves.
In such a map each key has what its last line sets. A document is not read exactly if a line of it,
neither blank nor a comment, has no separator or no key in front of it, and then the error has the
number of the first such line. -/
theorem parse_retracts (origin : String) :
    (∀ m, IsCanonical m → parse origin (print m) = .ok m) ∧
    (∀ text m, parse origin text = .ok m →
      IsCanonical m ∧ parse origin (print m) = .ok m ∧
        ∀ key value,
          m.get? key = some value ↔ LastSets (documentLines text.toList) key value) ∧
    ∀ text,
      ((∃ error, parse origin text = .error error) ↔
        ∃ line ∈ documentLines text.toList, ∃ fault, HasFault line fault) ∧
      ∀ error, parse origin text = .error error ↔
        ∃ before fault, FirstFault (documentLines text.toList) before fault ∧
          error = .malformed origin (.said
            ("line " ++ toString (before.length + 1) ++ ": " ++ fault.message)) := by
  refine ⟨fun m h => parse_eq_ok_iff.2 (read_print h), fun text m h => ?_,
    fun text => ⟨?_, fun error => parse_eq_error_iff⟩⟩
  · obtain ⟨hcanonical, hlast⟩ := of_read_eq_ok (parse_eq_ok_iff.1 h)
    exact ⟨hcanonical, parse_eq_ok_iff.2 (read_print hcanonical), hlast⟩
  · constructor
    · rintro ⟨error, h⟩
      obtain ⟨before, fault, ⟨line, after, hlines, hfault, -⟩, -⟩ := parse_eq_error_iff.1 h
      exact ⟨line, hlines ▸ List.mem_append_right _ List.mem_cons_self, fault, hfault⟩
    · rintro ⟨line, hline, fault, hfault⟩
      cases h : parse origin text with
      | error error => exact ⟨error, rfl⟩
      | ok m =>
        have hread := (read_eq text).symm.trans (parse_eq_ok_iff.1 h)
        exact absurd hfault ((readLines_eq_ok_iff.1 hread).1 line hline fault)

/-- A map with a blank inside a key and with separators in a value. -/
def awkward : Properties := .ofList [("a b", "x:=#y"), ("c!", "")]

def awkwardText : String := "! note\n a b = z\r\n\ta b : x:=#y \r\n\nc!="

def faultyText : String := "a=1\n\n : 2\nb"

/-- Of two lines that set a key the last one counts, and of two lines at fault the first one. -/
theorem parse_retracts_awkward :
    IsCanonical awkward ∧ parse "app.conf" (print awkward) = .ok awkward ∧
    LastSets (documentLines awkwardText.toList) "a b" "x:=#y" ∧
    ∃ before fault, FirstFault (documentLines faultyText.toList) before fault ∧
      ConfigError.malformed "app.conf" (.said "line 3: empty key") =
        .malformed "app.conf" (.said
          ("line " ++ toString (before.length + 1) ++ ": " ++ fault.message)) := by
  obtain ⟨hprint, hparse, hfail⟩ := parse_retracts "app.conf"
  obtain ⟨hcanonical, -, hlast⟩ := hparse awkwardText awkward rfl
  exact ⟨hcanonical, hprint awkward hcanonical, (hlast "a b" "x:=#y").1 rfl,
    ((hfail faultyText).2 _).1 rfl⟩

end LayeredConfig.KeyValue
