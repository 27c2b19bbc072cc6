import LayeredConfig.Proofs.SourceSet.Precedence
import LayeredConfig.Source.Environment
import Mathlib.Data.List.Nodup

/-! # Variables under their keys

Names are brought into the form of keys by a map that is not one to one: `A_B` and `a.b` may both
become `a.b`, and a name that is used up becomes no key at all. What a source of variables
enumerates under a key is the text of one of the variables with that key (`of_get?_properties`,
`isSome_get?_properties`).

Where names are keys as they are, each key has one name, so a single look-up may ask for the
variable itself. It does so for the empty name too, which is the one that is not enumerated
(`isConsistent_toSource_iff`). Where several variables have one key, the one that is enumerated last
counts. So the order of the variables makes no difference to a key exactly if all its variables have
one text (`unordered_iff`). -/

namespace LayeredConfig

namespace Text

theorem lowerAfter_ne_nil (before : List Char) {cs : List Char} (h : cs ≠ []) :
    lowerAfter before cs ≠ [] := by
  obtain ⟨c, rest, rfl⟩ := List.exists_cons_of_ne_nil h
  unfold lowerAfter
  dsimp only
  split
  · exact List.cons_ne_nil _ _
  · split
    · exact List.cons_ne_nil _ _
    · split <;> exact List.cons_ne_nil _ _

end Text

namespace Environment

open LayeredConfig.Text

variable {e : Environment} {var key text : String}

/-- Whether names are keys as they are. -/
def IsPlain (e : Environment) : Prop := e.leading = none ∧ e.isNormalized = false

instance (e : Environment) : Decidable e.IsPlain :=
  inferInstanceAs (Decidable (e.leading = none ∧ e.isNormalized = false))

/-! ### Keys of variables -/

theorem normalize_ne_nil {cs : List Char} (h : cs ≠ []) : normalize cs ≠ [] := by
  unfold normalize
  rw [Ne, List.map_eq_nil_iff]
  exact lowerAfter_ne_nil [] h

/-- What is left of a name that has a key. -/
theorem key?_eq_some_iff :
    e.key? var = some key ↔ ∃ cs, e.stripLeading? var = some cs ∧ cs ≠ [] ∧
      String.ofList (if e.isNormalized then normalize cs else cs) = key := by
  unfold key?
  constructor
  · intro h
    split at h
    · cases h
    · cases h
    · rename_i cs hne hcs
      exact ⟨cs, hcs, hne, Option.some.inj h⟩
  · rintro ⟨cs, hcs, hne, rfl⟩
    rw [hcs]
    cases cs with
    | nil => exact absurd rfl hne
    | cons c rest => rfl

/-- No variable has the empty key. -/
theorem ne_empty_of_key? (h : e.key? var = some key) : key ≠ "" := by
  obtain ⟨cs, -, hne, rfl⟩ := key?_eq_some_iff.1 h
  intro hempty
  have hnil := congrArg String.toList hempty
  rw [String.toList_ofList] at hnil
  split at hnil
  · exact normalize_ne_nil hne hnil
  · exact hne hnil

/-- A name is its beginning and what is left of it. -/
theorem toList_eq_of_stripLeading? {cs : List Char} (h : e.stripLeading? var = some cs) :
    var.toList = (e.leading.map String.toList).getD [] ++ cs := by
  unfold stripLeading? at h
  cases hlead : e.leading with
  | none =>
    rw [hlead] at h
    exact Option.some.inj h
  | some leading =>
    rw [hlead] at h
    exact after?_eq_some.1 h

/-- Without normalization no two names have one key. -/
theorem key?_inj (hplain : e.isNormalized = false) {other : String} (h : e.key? var = some key)
    (hother : e.key? other = some key) : var = other := by
  obtain ⟨cs, hcs, -, hkey⟩ := key?_eq_some_iff.1 h
  obtain ⟨ds, hds, -, hkey'⟩ := key?_eq_some_iff.1 hother
  rw [hplain, if_neg Bool.false_ne_true] at hkey hkey'
  have hsame : cs = ds := by
    rw [← String.toList_ofList (l := cs), ← String.toList_ofList (l := ds), hkey, hkey']
  refine String.toList_injective ?_
  rw [toList_eq_of_stripLeading? hcs, toList_eq_of_stripLeading? hds, hsame]

/-- A name that is a key as it is. -/
theorem IsPlain.key?_eq_some_iff (h : e.IsPlain) (hkey : key ≠ "") :
    e.key? var = some key ↔ var = key := by
  have hself : e.key? key = some key := by
    refine Environment.key?_eq_some_iff.2 ⟨key.toList, ?_, mt String.toList_eq_nil_iff.1 hkey, ?_⟩
    · unfold stripLeading?
      rw [h.1]
    · rw [h.2, if_neg Bool.false_ne_true, String.ofList_toList]
  constructor
  · exact fun hvar => key?_inj h.2 hvar hself
  · rintro rfl
    exact hself

/-! ### What is enumerated -/

theorem mem_pairs_iff :
    (key, text) ∈ e.pairs ↔ ∃ v ∈ e.vars, e.key? v.1 = some key ∧ v.2 = text := by
  unfold pairs
  rw [List.mem_filterMap]
  simp only [Option.map_eq_some_iff, Prod.mk.injEq]
  constructor
  · rintro ⟨v, hv, k, hk, rfl, rfl⟩
    exact ⟨v, hv, hk, rfl⟩
  · rintro ⟨v, hv, hk, rfl⟩
    exact ⟨v, hv, key, hk, rfl, rfl⟩

theorem of_get?_properties (h : e.properties.get? key = some text) :
    ∃ v ∈ e.vars, e.key? v.1 = some key ∧ v.2 = text :=
  mem_pairs_iff.1 (KeyMap.mem_of_get?_ofList h)

/-- The keys that are enumerated are those of the variables. -/
theorem isSome_get?_properties :
    (e.properties.get? key).isSome ↔ ∃ v ∈ e.vars, e.key? v.1 = some key := by
  rw [Option.isSome_iff_exists]
  constructor
  · rintro ⟨text, h⟩
    obtain ⟨v, hv, hkey, -⟩ := of_get?_properties h
    exact ⟨v, hv, hkey⟩
  · rintro ⟨v, hv, hkey⟩
    have hmem : (key, v.2) ∈ e.pairs := mem_pairs_iff.2 ⟨v, hv, hkey, rfl⟩
    refine Option.isSome_iff_exists.1 ?_
    show ((KeyMap.ofList e.pairs).get? key).isSome
    rw [KeyMap.get?_ofList, List.lookup_isSome_iff]
    exact ⟨_, List.mem_reverse.2 hmem, by simp⟩

theorem get?_properties_empty : e.properties.get? "" = none := by
  rw [← Option.not_isSome_iff_eq_none, isSome_get?_properties]
  rintro ⟨v, -, hkey⟩
  exact ne_empty_of_key? hkey rfl

/-- Where names are keys as they are, all variables but the nameless one are enumerated. -/
theorem IsPlain.get?_properties (h : e.IsPlain) (hkey : key ≠ "") :
    e.properties.get? key = (KeyMap.ofList e.vars).get? key := by
  show (KeyMap.ofList e.pairs).get? key = _
  rw [KeyMap.get?_ofList, KeyMap.get?_ofList]
  unfold pairs
  rw [← List.filterMap_reverse]
  induction e.vars.reverse with
  | nil => rfl
  | cons v rest ih =>
    rw [KeyMap.lookup_cons, List.filterMap_cons]
    by_cases hv : v.1 = key
    · rw [(h.key?_eq_some_iff hkey).2 hv, if_pos hv.symm]
      exact (KeyMap.lookup_cons _ _ _).trans (if_pos rfl)
    · rw [if_neg (Ne.symm hv), ← ih]
      cases hother : e.key? v.1 with
      | none => rfl
      | some other =>
        have hne : key ≠ other := fun heq =>
          hv ((h.key?_eq_some_iff hkey).1 (hother.trans (congrArg some heq.symm)))
        exact (KeyMap.lookup_cons _ _ _).trans (if_neg hne)

/-! ### Single look-ups -/

theorem IsPlain.get_eq (h : e.IsPlain) (key : String) :
    e.get key = ((KeyMap.ofList e.vars).get? key).map fun v => .of key v e.name := by
  unfold get
  rw [h.1, h.2]
  rfl

theorem get_eq_of_not_isPlain (h : ¬ e.IsPlain) (key : String) :
    e.get key = (e.properties.get? key).map fun v => .of key v e.name := by
  have hcond : (e.leading.isNone && !e.isNormalized) = false := by
    rw [← Bool.not_eq_true, Bool.and_eq_true, Option.isNone_iff_eq_none, Bool.not_eq_true']
    exact h
  unfold get
  simp only [hcond, Bool.false_eq_true, if_false]

/-- **A source of variables answers as it is enumerated,** with the same text or with none, but for
the variable with the empty name. It is never enumerated, and it is found by a single look-up where
names are keys as they are. -/
theorem isConsistent_toSource_iff (e : Environment) (id : Identity) :
    (∀ key, (e.toSource id).IsConsistent key ↔
      ¬ (key = "" ∧ e.IsPlain ∧ ∃ text, ("", text) ∈ e.vars)) ∧
    e.properties.get? "" = none ∧
    (e.IsPlain → ((e.get "").isSome ↔ ∃ text, ("", text) ∈ e.vars)) := by
  have hnameless (h : e.IsPlain) : (e.get "").isSome ↔ ∃ text, ("", text) ∈ e.vars := by
    rw [h.get_eq, Option.isSome_map, KeyMap.get?_ofList, List.lookup_isSome_iff]
    simp only [List.mem_reverse, Prod.exists, beq_iff_eq]
    exact ⟨fun ⟨k, text, hmem, hk⟩ => ⟨text, hk ▸ hmem⟩, fun ⟨text, hmem⟩ => ⟨_, text, hmem, rfl⟩⟩
  refine ⟨fun key => ?_, get?_properties_empty, hnameless⟩
  show e.get key = (e.properties.get? key).map _ ↔ _
  by_cases hplain : e.IsPlain
  · by_cases hkey : key = ""
    · subst hkey
      rw [get?_properties_empty, Option.map_none, ← Option.not_isSome_iff_eq_none,
        hnameless hplain]
      simp only [hplain, true_and]
    · rw [hplain.get_eq, hplain.get?_properties hkey]
      simp only [hkey, false_and, not_false_eq_true, iff_true]
      rfl
  · simp only [hplain, false_and, and_false, not_false_eq_true, iff_true]
    exact get_eq_of_not_isPlain hplain key

/-- A variable without a name. -/
def nameless : Environment where
  vars := [("", "x"), ("HOME", "/root")]

/-- It is found by its name and not enumerated. -/
theorem not_isConsistent_nameless :
    ¬ (nameless.toSource (.object 0)).IsConsistent "" ∧
    nameless.get "" = some (.of "" "x" "env") ∧
    nameless.properties = .ofList [("HOME", "/root")] := by
  have hget : nameless.get "" = some (.of "" "x" "env") := by decide
  have hproperties : nameless.properties = .ofList [("HOME", "/root")] := by decide
  refine ⟨fun h => ?_, hget, hproperties⟩
  have hempty : nameless.get "" = (nameless.properties.get? "").map _ := h
  rw [hget, hproperties] at hempty
  cases hempty

/-! ### Variables in another order -/

/-- Whether all variables with a key have one text. -/
def AgreesOn (e : Environment) (key : String) : Prop :=
  ∀ v ∈ e.vars, ∀ w ∈ e.vars, e.key? v.1 = some key → e.key? w.1 = some key → v.2 = w.2

section Order

variable {vars : List (String × String)}

/-- The last variable with a key is the one that counts. -/
theorem get?_properties_concat {v : String × String} (hkey : e.key? v.1 = some key) :
    ({ e with vars := vars ++ [v] } : Environment).properties.get? key = some v.2 := by
  show (KeyMap.ofList ((vars ++ [v]).filterMap fun v => (e.key? v.1).map (·, v.2))).get? key = _
  rw [KeyMap.get?_ofList, List.filterMap_append, List.reverse_append, List.lookup_append]
  have hlast : [v].filterMap (fun v => (e.key? v.1).map (·, v.2)) = [(key, v.2)] := by
    simp [hkey]
  rw [hlast]
  simp

/-- Where variables agree, the text of a key is that of any variable with the key. -/
theorem AgreesOn.get?_properties_eq_some_iff (h : e.AgreesOn key) :
    e.properties.get? key = some text ↔ ∃ v ∈ e.vars, e.key? v.1 = some key ∧ v.2 = text := by
  refine ⟨of_get?_properties, ?_⟩
  rintro ⟨v, hv, hkey, rfl⟩
  obtain ⟨found, hfound⟩ := Option.isSome_iff_exists.1 (isSome_get?_properties.2 ⟨v, hv, hkey⟩)
  obtain ⟨w, hw, hkey', rfl⟩ := of_get?_properties hfound
  rw [hfound, h w hw v hv hkey' hkey]

theorem AgreesOn.perm (h : e.AgreesOn key) (hp : vars.Perm e.vars) :
    ({ e with vars } : Environment).AgreesOn key :=
  fun v hv w hw => h v (hp.mem_iff.1 hv) w (hp.mem_iff.1 hw)

theorem AgreesOn.get?_properties_perm (h : e.AgreesOn key) (hp : vars.Perm e.vars) :
    ({ e with vars } : Environment).properties.get? key = e.properties.get? key := by
  refine Option.ext fun text => ?_
  rw [(h.perm hp).get?_properties_eq_some_iff, h.get?_properties_eq_some_iff]
  simp only [hp.mem_iff]
  rfl

/-- Variables that have different names are found by these in any order. -/
theorem get?_ofList_perm (hnames : (e.vars.map (·.1)).Nodup) (hp : vars.Perm e.vars)
    (key : String) : (KeyMap.ofList vars).get? key = (KeyMap.ofList e.vars).get? key := by
  have hne : e.vars.Pairwise fun v w => v.1 ≠ w.1 := List.pairwise_map.1 hnames
  have hne' : vars.Pairwise fun v w => v.1 ≠ w.1 := (hp.pairwise_iff Ne.symm).2 hne
  refine Option.ext fun text => ?_
  rw [KeyMap.get?_ofList_eq_some hne', KeyMap.get?_ofList_eq_some hne, hp.mem_iff]

theorem AgreesOn.get_perm (h : e.AgreesOn key) (hnames : (e.vars.map (·.1)).Nodup)
    (hp : vars.Perm e.vars) : ({ e with vars } : Environment).get key = e.get key := by
  by_cases hplain : e.IsPlain
  · have hplain' : ({ e with vars } : Environment).IsPlain := hplain
    rw [hplain.get_eq, hplain'.get_eq, get?_ofList_perm hnames hp]
  · have hplain' : ¬ ({ e with vars } : Environment).IsPlain := hplain
    rw [get_eq_of_not_isPlain hplain, get_eq_of_not_isPlain hplain', h.get?_properties_perm hp]

/-- Variables that are enumerated alike in any order agree: each of them may come last. -/
theorem agreesOn_of_perm (h : ∀ vars, vars.Perm e.vars →
      ({ e with vars } : Environment).properties.get? key = e.properties.get? key) :
    e.AgreesOn key := by
  -- Moving a variable to the end makes its text the one that is enumerated.
  have hlast : ∀ v ∈ e.vars, e.key? v.1 = some key → e.properties.get? key = some v.2 := by
    intro v hv hkey
    obtain ⟨before, behind, hvars⟩ := List.append_of_mem hv
    have hp : (before ++ behind ++ [v]).Perm e.vars := by
      rw [hvars, List.append_assoc]
      exact (List.perm_append_singleton v behind).append_left before
    rw [← h _ hp, get?_properties_concat hkey]
  intro v hv w hw hkey hkey'
  exact Option.some.inj ((hlast v hv hkey).symm.trans (hlast w hw hkey'))

end Order

/-- **The order of variables** with different names makes no difference to a key exactly if all its
variables have one text, as they have where names are not normalized. Which keys there are never
depends on the order. -/
theorem unordered_iff (e : Environment) (hnames : (e.vars.map (·.1)).Nodup) :
    (∀ key, e.AgreesOn key ↔ ∀ vars, vars.Perm e.vars →
      ({ e with vars } : Environment).properties.get? key = e.properties.get? key ∧
        ({ e with vars } : Environment).get key = e.get key) ∧
    (∀ vars, vars.Perm e.vars → ∀ key,
      ({ e with vars } : Environment).properties.contains key = e.properties.contains key) ∧
    (e.isNormalized = false → ∀ key, e.AgreesOn key) := by
  refine ⟨fun key => ⟨fun h vars hp => ?_, fun h => ?_⟩, fun vars hp key => ?_,
    fun hplain key v hv w hw hkey hkey' => ?_⟩
  · exact ⟨h.get?_properties_perm hp, h.get_perm hnames hp⟩
  · exact agreesOn_of_perm fun vars hp => (h vars hp).1
  · refine Bool.eq_iff_iff.2 ?_
    unfold KeyMap.contains
    rw [isSome_get?_properties, isSome_get?_properties]
    simp only [hp.mem_iff]
    rfl
  · have hsame : v.1 = w.1 := key?_inj hplain hkey hkey'
    exact congrArg Prod.snd (List.inj_on_of_nodup_map hnames hv hw hsame)

/-- Two variables with one key, which have one text, beside others. -/
def alike : Environment where
  vars := [("APP_A_B", "1"), ("APP_ÄB", "2"), ("APP_", "3"), ("app_a.b", "4"), ("APP_a.b", "1")]
  leading := some "APP_"
  isNormalized := true

/-- Two variables with one key and two texts. -/
def unlike : Environment where
  vars := [("A_B", "1"), ("a_b", "2")]
  isNormalized := true

/-- The other way round they have the other text. -/
theorem get?_ordered_unlike :
    (unlike.vars.map (·.1)).Nodup ∧ unlike.vars.reverse.Perm unlike.vars ∧
    unlike.properties = .ofList [("a.b", "2")] ∧
    ({ unlike with vars := unlike.vars.reverse } : Environment).properties =
      .ofList [("a.b", "1")] ∧
    unlike.get "a.b" = some (.of "a.b" "2" "env") ∧
    ({ unlike with vars := unlike.vars.reverse } : Environment).get "a.b" =
      some (.of "a.b" "1" "env") := by
  refine ⟨by decide, List.reverse_perm _, ?_, ?_, ?_, ?_⟩ <;> decide +kernel

theorem unordered_alike :
    (alike.vars.map (·.1)).Nodup ∧ alike.AgreesOn "a.b" ∧
    ({ alike with vars := alike.vars.reverse } : Environment).get "a.b" =
      some (.of "a.b" "1" "env") ∧
    ({ alike with vars := alike.vars.reverse } : Environment).properties.contains "äb" ∧
    ¬ unlike.AgreesOn "a.b" := by
  have hnames : (alike.vars.map (·.1)).Nodup := by decide
  have hagrees : alike.AgreesOn "a.b" := by unfold AgreesOn; decide +kernel
  obtain ⟨hiff, hkeys, -⟩ := unordered_iff alike hnames
  obtain ⟨-, hget⟩ := (hiff "a.b").1 hagrees _ (List.reverse_perm alike.vars)
  refine ⟨hnames, hagrees, ?_, ?_, fun h => ?_⟩
  · rw [hget]
    decide +kernel
  · rw [hkeys _ (List.reverse_perm alike.vars)]
    decide +kernel
  · obtain ⟨hsame, -⟩ := ((unordered_iff unlike (by decide)).1 "a.b").1 h _
      (List.reverse_perm unlike.vars)
    exact absurd hsame (by decide +kernel)

end Environment

end LayeredConfig
