import LayeredConfig.Source.Arguments

/-! # Options written and read

What stands in a list of arguments is read one argument at a time, with one argument of lookahead
for the value of a flag. An option with its value in it is read whatever comes next
(`settings_option_cons`), and the mark that ends the options is an option itself, so that no flag
takes it for a value (`settings_append_mark`).

Maps with keys that an option can have are what arguments are read to, and written as options they
are read to themselves again (`parse_options`). -/

namespace LayeredConfig.Arguments

open LayeredConfig.Text

/-- The keys that an option can have. -/
structure IsOptionKey (key : String) : Prop where
  nonempty : key ≠ ""
  noEquals : '=' ∉ key.toList

/-- A setting as an option. -/
def option (setting : String × String) : String := "--" ++ setting.1 ++ "=" ++ setting.2

/-! ### One argument -/

theorem optionBody?_option (setting : String × String) :
    optionBody? (option setting) = some (setting.1.toList ++ '=' :: setting.2.toList) := by
  unfold optionBody?
  rw [after?_eq_some]
  simp [option, optionMark]

theorem isOptionKey_ofList {key : List Char} (hne : key ≠ []) (h : '=' ∉ key) :
    IsOptionKey (String.ofList key) where
  nonempty hempty := hne (by simpa using hempty)
  noEquals := by rwa [String.toList_ofList]

/-- An option with its value in it makes its setting, whatever follows it. -/
theorem settings_option_cons {key : String} (h : IsOptionKey key) (value : String)
    (rest : List String) :
    settings (option (key, value) :: rest) = (key, value) :: settings rest := by
  obtain ⟨c, cs, hcs⟩ := List.exists_cons_of_ne_nil (mt String.toList_eq_nil_iff.1 h.nonempty)
  have hbody : optionBody? (option (key, value)) = some (c :: (cs ++ '=' :: value.toList)) := by
    rw [optionBody?_option, hcs, List.cons_append]
  have hcut : cutAt? (· = '=') (c :: (cs ++ '=' :: value.toList)) =
      some (c :: cs, value.toList) :=
    cutAt?_char_eq_some_iff.2 ⟨hcs ▸ h.noEquals, rfl⟩
  have hkey : String.ofList (c :: cs) = key := by rw [← hcs, String.ofList_toList]
  rw [settings]
  simp only [hbody, hcut, hkey, String.ofList_toList]

/-- The mark alone ends the options. -/
theorem settings_mark_cons (rest : List String) : settings ("--" :: rest) = [] := by
  rw [settings]
  rfl

section flag

variable {argument next : String} {key : List Char} {others : List String}

/-- Whether an argument is a flag: an option without a value in it. -/
structure IsFlag (argument : String) (key : List Char) : Prop where
  nonempty : key ≠ []
  body_eq : optionBody? argument = some key
  noEquals : '=' ∉ key

theorem isFlag_of (hne : key ≠ []) (hbody : optionBody? argument = some key)
    (hcut : cutAt? (· = '=') key = none) : IsFlag argument key :=
  ⟨hne, hbody, cutAt?_char_eq_none_iff.1 hcut⟩

theorem IsFlag.settings_option (h : IsFlag argument key) (hnext : (optionBody? next).isSome) :
    settings (argument :: next :: others) =
      (String.ofList key, "true") :: settings (next :: others) := by
  have hne := h.nonempty
  rw [settings]
  simp only [h.body_eq, cutAt?_char_eq_none_iff.2 h.noEquals, hnext, if_true]

theorem IsFlag.settings_value (h : IsFlag argument key) (hnext : ¬ (optionBody? next).isSome) :
    settings (argument :: next :: others) = (String.ofList key, next) :: settings others := by
  have hne := h.nonempty
  rw [settings]
  simp only [h.body_eq, cutAt?_char_eq_none_iff.2 h.noEquals, hnext, Bool.false_eq_true, if_false]

theorem IsFlag.isOptionKey (h : IsFlag argument key) : IsOptionKey (String.ofList key) :=
  isOptionKey_ofList h.nonempty h.noEquals

end flag

/-! ### All arguments -/

theorem settings_options {pairs : List (String × String)} (h : ∀ p ∈ pairs, IsOptionKey p.1) :
    settings (pairs.map option) = pairs := by
  induction pairs with
  | nil => rfl
  | cons p rest ih =>
    obtain ⟨hp, hrest⟩ := List.forall_mem_cons.1 h
    rw [List.map_cons, settings_option_cons hp, ih hrest]

/-- Arguments set keys that an option can have. -/
theorem isOptionKey_of_mem_settings {arguments : List String} {p : String × String}
    (h : p ∈ settings arguments) : IsOptionKey p.1 := by
  fun_induction settings arguments with
  | case1 => cases h
  | case2 argument rest hword ih => exact ih h
  | case3 argument rest hmark => cases h
  | case4 argument rest body hne hbody value hcut ih => exact ih h
  | case5 argument rest body hne hbody key value hkey hcut ih =>
    rcases List.mem_cons.1 h with rfl | h
    · exact isOptionKey_ofList hkey (cutAt?_char_eq_some_iff.1 hcut).1
    · exact ih h
  | case6 argument body hne hbody hcut =>
    cases List.mem_singleton.1 h
    exact (isFlag_of hne hbody hcut).isOptionKey
  | case7 argument body hne hbody hcut next others hnext ih
  | case8 argument body hne hbody hcut next others hnext ih =>
    rcases List.mem_cons.1 h with rfl | h
    · exact (isFlag_of hne hbody hcut).isOptionKey
    · exact ih h

/-- Behind the mark nothing counts. A flag in front of it does not take it for its value. -/
theorem settings_append_mark (a b : List String) : settings (a ++ "--" :: b) = settings a := by
  fun_induction settings a with
  | case1 => exact settings_mark_cons b
  | case2 argument rest hword ih => simp only [List.cons_append, settings, hword, ih]
  | case3 argument rest hmark => simp only [List.cons_append, settings, hmark]
  | case4 argument rest body hne hbody value hcut ih =>
    simp only [List.cons_append, settings, hbody, hcut, ih]
  | case5 argument rest body hne hbody key value hkey hcut ih =>
    simp only [List.cons_append, settings, hbody, hcut, ih]
  | case6 argument body hne hbody hcut =>
    have hflag := isFlag_of hne hbody hcut
    exact (hflag.settings_option rfl).trans (by rw [settings_mark_cons])
  | case7 argument body hne hbody hcut next others hnext ih =>
    have hflag := isFlag_of hne hbody hcut
    exact (hflag.settings_option hnext).trans (congrArg _ ih)
  | case8 argument body hne hbody hcut next others hnext ih =>
    have hflag := isFlag_of hne hbody hcut
    exact (hflag.settings_value hnext).trans (congrArg _ ih)

theorem isOptionKey_of_get?_parse {arguments : List String} {key value : String}
    (h : (parse arguments).get? key = some value) : IsOptionKey key :=
  isOptionKey_of_mem_settings (KeyMap.mem_of_get?_ofList h)

theorem parse_options_of_perm {m : Properties} {pairs : List (String × String)}
    (h : ∀ key value, m.get? key = some value → IsOptionKey key) (hpairs : pairs.Perm m.entries) :
    parse (pairs.map option) = m := by
  have hkeys : ∀ p ∈ pairs, IsOptionKey p.1 := fun p hp =>
    h p.1 p.2 (KeyMap.mem_entries_iff.1 (hpairs.mem_iff.1 hp))
  have hne : pairs.Pairwise fun a b => a.1 ≠ b.1 :=
    (hpairs.pairwise_iff Ne.symm).2 m.pairwise_entries_ne
  unfold parse
  rw [settings_options hkeys]
  refine KeyMap.ext_get? fun key => Option.ext fun value => ?_
  rw [KeyMap.get?_ofList_eq_some hne, hpairs.mem_iff, KeyMap.mem_entries_iff]

/-- Maps with keys that an option can have are what arguments are read to, and written as options in
any order they are read to themselves. Nothing counts behind the mark, whatever stands in front of
it. -/
theorem parse_options :
    (∀ m : Properties, (∀ key value, m.get? key = some value → IsOptionKey key) →
      ∀ pairs : List (String × String), pairs.Perm m.entries → parse (pairs.map option) = m) ∧
    (∀ arguments key value, (parse arguments).get? key = some value → IsOptionKey key) ∧
    (∀ arguments (pairs : List (String × String)), pairs.Perm (parse arguments).entries →
      parse (pairs.map option) = parse arguments) ∧
    ∀ a b, parse (a ++ ["--"] ++ b) = parse a := by
  refine ⟨fun m h pairs hpairs => parse_options_of_perm h hpairs,
    fun arguments key value h => isOptionKey_of_get?_parse h, fun arguments pairs hpairs =>
      parse_options_of_perm (fun _ _ h => isOptionKey_of_get?_parse h) hpairs, fun a b => ?_⟩
  unfold parse
  rw [List.append_assoc, List.singleton_append, settings_append_mark]

/-- A key that begins with a dash, and values that are the mark or hold an equals sign. -/
def dashed : Properties := .ofList [("-x", "--"), ("host", "a=b")]

/-- These are read in either order, and a flag in front of the mark stays without a value. -/
theorem parse_options_dashed :
    parse ["--host=a=b", "---x=--"] = dashed ∧
    parse (["serve", "--debug"] ++ ["--"] ++ ["on", "--port=80"]) = .ofList [("debug", "true")] := by
  obtain ⟨hwritten, hkeys, -, hmark⟩ := parse_options
  have hdashed : ∀ key value, dashed.get? key = some value → IsOptionKey key :=
    hkeys ["---x=--", "--host", "a=b"]
  exact ⟨hwritten dashed hdashed [("host", "a=b"), ("-x", "--")] (.swap _ _ _),
    hmark ["serve", "--debug"] ["on", "--port=80"]⟩

end LayeredConfig.Arguments
