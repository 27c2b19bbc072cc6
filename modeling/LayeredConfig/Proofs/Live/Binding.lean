import LayeredConfig.Binding
import LayeredConfig.Proofs.Live.Isolation

/-! # Binding among changes

A table of fields is read field by field, each from the set that is published when its turn comes.
What others publish in between is therefore seen by the later fields and not by the earlier ones:
every field is read from one published set and no set is older than the one before it
(`bind_reads_published`), but there need not be one set from which all fields are read
(`bind_hooked`). Where nothing is published meanwhile there is (`Successive.readAcross_eq`). -/

namespace LayeredConfig

namespace Bound

/-- Reads fields, each from a set of its own, and adds their values. -/
def readAcross (v : View Id) (values : Properties) : List (Field × SourceSet) → Result Bound
  | [] => .ok ⟨values⟩
  | (field, set) :: rest =>
    match ((v.get set field.key).run).or field.default? with
    | some value => readAcross v (values.insert field.key value) rest
    | none =>
      if field.isRequired then .error (.missingKey field.key none)
      else readAcross v values rest

variable {v : View Id}

/-- Where all sets are one, reading across them is reading from that one. -/
theorem readAcross_eq_readAfter {set : SourceSet} {fields : List Field} {sets : List SourceSet}
    (hlength : sets.length = fields.length) (hsets : ∀ other ∈ sets, other = set)
    (values : Properties) :
    readAcross v values (fields.zip sets) = (readAfter (v.get set) values fields).run := by
  induction fields generalizing sets values with
  | nil => rfl
  | cons field rest ih =>
    obtain ⟨other, others, rfl⟩ := List.exists_cons_of_length_eq_add_one hlength
    have hother : other = set := hsets other List.mem_cons_self
    have hrest := fun values => ih (Nat.succ.inj hlength)
      (fun o ho => hsets o (List.mem_cons_of_mem _ ho)) values
    subst hother
    show readAcross v values ((field, other) :: rest.zip others) = _
    unfold readAcross readAfter
    rw [Id.run_bind]
    cases (v.get other field.key).run.or field.default? with
    | some value => exact hrest _
    | none =>
      cases field.isRequired with
      | true => rfl
      | false => exact hrest values

/-- The only failure is that of a required field whose key is not in its set. -/
theorem missing_of_readAcross {values : Properties} {pairs : List (Field × SourceSet)}
    {error : ConfigError} (h : readAcross v values pairs = .error error) :
    ∃ p ∈ pairs, p.1.isRequired = true ∧ (v.get p.2 p.1.key).run = none ∧
      error = .missingKey p.1.key none := by
  induction pairs generalizing values with
  | nil => cases h
  | cons p rest ih =>
    obtain ⟨field, set⟩ := p
    have hlater {values : Properties} (h : readAcross v values rest = .error error) :
        ∃ p ∈ (field, set) :: rest, p.1.isRequired = true ∧ (v.get p.2 p.1.key).run = none ∧
          error = .missingKey p.1.key none := by
      obtain ⟨p, hp, hmissing⟩ := ih h
      exact ⟨p, List.mem_cons_of_mem _ hp, hmissing⟩
    unfold readAcross at h
    split at h
    · exact hlater h
    · rename_i hnone
      split at h
      · rename_i hrequired
        cases h
        exact ⟨(field, set), List.mem_cons_self, hrequired, (Option.or_eq_none_iff.1 hnone).1, rfl⟩
      · exact hlater h

end Bound

namespace Course

variable {v : View Id} {c d : Course} {sets : List SourceSet}

/-- Sets that were published one after the other, from one course on to another. -/
structure Successive (v : View Id) (c : Course) (sets : List SourceSet) (d : Course) : Prop where
  leads : ∃ accesses, d = c.after v accesses
  published : ∀ set ∈ sets, set ∈ d.past
  notBefore : ∀ set ∈ sets, c.store.version ≤ set.version
  ordered : sets.Pairwise fun a b => a.version ≤ b.version

namespace Successive

/-- The set that is published now, any number of times. -/
theorem replicate (h : c.Sound v) (n : Nat) :
    Successive v c (List.replicate n c.store.published) c where
  leads := ⟨[], rfl⟩
  published _ hmem := (List.eq_of_mem_replicate hmem) ▸ h.published_mem
  notBefore _ hmem := Nat.le_of_eq (congrArg SourceSet.version (List.eq_of_mem_replicate hmem)).symm
  ordered := List.pairwise_replicate.2 (.inr (Nat.le_refl _))

/-- A set that was published before the others. -/
theorem cons (h : c.Sound v) {before after : List Access}
    (hsets : Successive v ((c.after v before).after v after) sets d) :
    Successive v c ((c.after v before).store.published :: sets) d := by
  obtain ⟨accesses, hd⟩ := hsets.leads
  have hle : c.store.version ≤ (c.after v before).store.version := version_le_after v c before
  have hlater : ∀ set ∈ sets, (c.after v before).store.version ≤ set.version := by
    intro set hmem
    have hle' := version_le_after v (c.after v before) after
    exact Nat.le_trans hle' (hsets.notBefore set hmem)
  have hpast : (c.after v before).store.published ∈ d.past := by
    rw [hd, ← after_append]
    exact (past_suffix_after v _ _).mem (h.after before).published_mem
  refine ⟨⟨before ++ (after ++ accesses), ?_⟩, fun set hmem => ?_, fun set hmem => ?_, ?_⟩
  · rw [hd, after_append, after_append]
  · rcases List.mem_cons.1 hmem with rfl | hmem
    · exact hpast
    · exact hsets.published set hmem
  · rcases List.mem_cons.1 hmem with rfl | hmem
    · exact hle
    · exact Nat.le_trans hle (hlater set hmem)
  · exact List.pairwise_cons.2 ⟨hlater, hsets.ordered⟩

/-- Where nothing was published meanwhile there is but one set. -/
theorem eq_published (h : c.Sound v) (hsets : Successive v c sets d)
    (hsame : d.store.version = c.store.version) : ∀ set ∈ sets, set = c.store.published := by
  intro set hmem
  obtain ⟨accesses, rfl⟩ := hsets.leads
  have hd : (c.after v accesses).Sound v := h.after accesses
  have hpast : c.store.published ∈ (c.after v accesses).past :=
    (past_suffix_after v c accesses).mem h.published_mem
  have hlow := hsets.notBefore set hmem
  have hhigh := hd.version_le (hsets.published set hmem)
  have hversion : set.version = c.store.published.version := by
    show set.version = c.store.version
    omega
  exact hd.eq_of_version (hsets.published set hmem) hpast hversion

/-- A table is then read from one version. -/
theorem readAcross_eq (h : c.Sound v) {fields : List Field} (hsets : Successive v c sets d)
    (hlength : sets.length = fields.length) (hsame : d.store.version = c.store.version) :
    Bound.readAcross v ∅ (fields.zip sets) =
      (Bound.read (v.get c.store.published) fields).run :=
  Bound.readAcross_eq_readAfter hlength (hsets.eq_published h hsame) ∅

end Successive

/-- Whether keys are read from a set that is published between call and return. -/
def ReadsKeys {σ : Type} (v : View Id) (At : σ → Course → Prop) (get : KeyReader (StateM σ)) :
    Prop :=
  ∀ w c key, c.Sound v → At w c → ∃ w' before after,
    (get key).run w = pure ((v.get (c.after v before).store.published key).run, w') ∧
      At w' ((c.after v before).after v after)

/-- Fields are read from sets that are published one after the other. -/
theorem ReadsKeys.readAfter_run {σ : Type} {At : σ → Course → Prop} {get : KeyReader (StateM σ)}
    (hget : ReadsKeys v At get) (fields : List Field) (values : Properties) {w : σ}
    (hc : c.Sound v) (hw : At w c) :
    ∃ sets w' d,
      (Bound.readAfter get values fields).run w =
        pure (Bound.readAcross v values (fields.zip sets), w') ∧
      At w' d ∧ Successive v c sets d ∧ sets.length = fields.length := by
  induction fields generalizing values w c with
  | nil => exact ⟨[], w, c, rfl, hw, .replicate hc 0, rfl⟩
  | cons field rest ih =>
    obtain ⟨w₁, before, after, hrun, hw₁⟩ := hget w c field.key hc hw
    have hc₁ : ((c.after v before).after v after).Sound v := (hc.after before).after after
    unfold Bound.readAfter
    rw [StateT.run_bind, hrun, pure_bind]
    cases hfound : ((v.get (c.after v before).store.published field.key).run).or field.default? with
    | some value =>
      obtain ⟨sets, w', d, hrest, hw', hsets, hlength⟩ :=
        ih (values.insert field.key value) hc₁ hw₁
      refine ⟨_ :: sets, w', d, ?_, hw', hsets.cons hc, congrArg Nat.succ hlength⟩
      simp only [hfound, List.zip_cons_cons, Bound.readAcross]
      exact hrest
    | none =>
      cases hrequired : field.isRequired with
      | true =>
        -- the rest of the fields is not read
        refine ⟨_ :: List.replicate rest.length _, w₁, _, ?_, hw₁,
          (Successive.replicate hc₁ rest.length).cons hc, by simp⟩
        simp only [hfound, hrequired, List.zip_cons_cons, Bound.readAcross]
        rfl
      | false =>
        obtain ⟨sets, w', d, hrest, hw', hsets, hlength⟩ := ih values hc₁ hw₁
        refine ⟨_ :: sets, w', d, ?_, hw', hsets.cons hc, congrArg Nat.succ hlength⟩
        simp only [hfound, hrequired, List.zip_cons_cons, Bound.readAcross]
        exact hrest

end Course

namespace World

open Course

variable {v : View Id}

/-- Reads a key once others have had a turn. -/
def getNext (v : View Id) (key : String) : StateM World (Option String) := do
  pass v
  get v key

/-- Reads a table of fields. Others have a turn in front of each. -/
def bind (v : View Id) (fields : List Field) : StateM World (Result Bound) :=
  Bound.read (getNext v) fields

theorem readsKeys_getNext : ReadsKeys v (fun (w : World) c => w.course = c) (getNext v) := by
  rintro w c key hc rfl
  obtain ⟨w₁, hpass, ⟨before, hw₁⟩, -⟩ := gives_pass v w hc
  obtain ⟨w', after, hget, hw'⟩ := get_run (hw₁ ▸ hc.after before) key
  refine ⟨w', before, after, ?_, hw₁ ▸ hw'⟩
  unfold getNext
  rw [StateT.run_bind, hpass, ← hw₁]
  exact hget

theorem readsKeys_read : ReadsKeys v (fun l : Live => l.IsAt v) Live.read := by
  intro l c key hc hl
  obtain ⟨l', after, hrun, hl'⟩ := (reads_get hc key).2 l hl
  exact ⟨l', [], after, hrun, hl'⟩

/-- Take any course of accesses to a context and a table that is bound behind it, while others act
at every turn, or a hook on the way commits. Every field has the value that its key has in one of
the sets that were published between call and return, or its default, and none of these sets is
older than that of the field before it. If nothing is published meanwhile all fields are read from
one version. A required field without a value is the only reason to fail. -/
theorem bind_reads_published (v : View Id) (fixed : List Source) (writable : Option Writable)
    (first : Loaded) (before : List Access) (fields : List Field) :
    let called := (Course.start (.initial fixed writable first)).after v before
    (∀ meanwhile, ∃ sets w,
      (bind v fields).run ⟨called, meanwhile⟩ =
        pure (Bound.readAcross v ∅ (fields.zip sets), w) ∧
      Successive v called sets w.course ∧ sets.length = fields.length) ∧
    (∀ l : Live, l.IsAt v called → ∃ sets l' d,
      (Bound.read Live.read fields).run l =
        pure (Bound.readAcross v ∅ (fields.zip sets), l') ∧
      l'.IsAt v d ∧ Successive v called sets d ∧ sets.length = fields.length) ∧
    (∀ sets d, Successive v called sets d → sets.length = fields.length →
      d.store.version = called.store.version →
      Bound.readAcross v ∅ (fields.zip sets) =
        (Bound.read (v.get called.store.published) fields).run) ∧
    ∀ sets error, Bound.readAcross v ∅ (fields.zip sets) = .error error →
      ∃ p ∈ fields.zip sets, p.1.isRequired = true ∧ (v.get p.2 p.1.key).run = none ∧
        error = .missingKey p.1.key none := by
  intro called
  have hcalled : called.Sound v := (Course.Sound.start rfl).after before
  refine ⟨fun meanwhile => ?_, fun l hl => readsKeys_read.readAfter_run fields ∅ hcalled hl,
    fun sets d hsets hlength hsame => hsets.readAcross_eq hcalled hlength hsame,
    fun sets error h => Bound.missing_of_readAcross h⟩
  obtain ⟨sets, w, d, hrun, rfl, hsets, hlength⟩ :=
    readsKeys_getNext.readAfter_run (w := ⟨called, meanwhile⟩) fields ∅ hcalled rfl
  exact ⟨sets, w, hrun, hsets, hlength⟩

/-- A source to write to, with a hook on the way of the first of two keys. -/
def divided : Writable :=
  ⟨.object 0, .ofPairs "runtime" [("first", "$\x7bhook:x\x7dold"), ("second", "old")]⟩

/-- A context at work whose hook is armed with a batch of two writes. -/
def dividing : Live where
  setup := ⟨[], defaultTimeout, .ofFilters [.hideReserved], [.hook "hook"], true⟩
  store := .initial [divided.toSource] (some divided) ⟨[], 0⟩
  files := .empty
  armed := some [.put "first" "new", .put "second" "new"]

/-- Both fields are read from sets that were published between call and return. -/
theorem bind_reads_published_dividing :
    let fields : List Field := [.required "first", .required "second"]
    ∃ sets l' d, (Bound.read Live.read fields).run dividing =
        pure (Bound.readAcross dividing.quiet ∅ (fields.zip sets), l') ∧
      Successive dividing.quiet (.start dividing.store) sets d ∧ sets.length = 2 ∧
      d.store.version = 2 := by
  intro fields
  obtain ⟨-, hlive, -⟩ := bind_reads_published dividing.quiet [divided.toSource] (some divided)
    ⟨[], 0⟩ [] fields
  obtain ⟨sets, l', d, hrun, hl', hsets, hlength⟩ := hlive dividing ⟨rfl, rfl, fun _ => rfl⟩
  have hversion : ((Bound.read Live.read fields).run dividing).2.store.version = 2 := by
    decide +kernel
  rw [hrun] at hversion
  refine ⟨sets, l', d, hrun, hsets, hlength, ?_⟩
  rw [← hversion, ← hl'.store]
  rfl

/-- The table has the first key of one version and the second key of the next one, and neither
version has both. -/
theorem bind_hooked :
    let fields : List Field := [.required "first", .required "second"]
    let bound := (Bound.read Live.read fields).run dividing
    bound.1.toOption = some ⟨.ofList [("first", "old"), ("second", "new")]⟩ ∧
    dividing.store.version = 1 ∧ bound.2.store.version = 2 ∧
    (Bound.read (dividing.quiet.get dividing.store.published) fields).run.toOption =
      some ⟨.ofList [("first", "old"), ("second", "old")]⟩ ∧
    (Bound.read (dividing.quiet.get bound.2.store.published) fields).run.toOption =
      some ⟨.ofList [("first", "new"), ("second", "new")]⟩ := by
  decide +kernel

end World

end LayeredConfig
