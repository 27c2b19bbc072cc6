import LayeredConfig.Format.Toml.Reading

/-! # Tables in key order

What holds of the entries of every table of a tree is said by `EachTable`. A document is read so
that the entries of its tables come in key order, one for each key (`inKeyOrder_of_read?`): entries
are put in by `insertEntry` alone, whatever way leads to the table, and values come from the reader,
which makes the tables in braces in the same manner. -/

namespace LayeredConfig.Toml

open KeyMap (insertEntry)

/-- Whether something holds of the entries of every table of a tree. -/
inductive Value.EachTable (p : Entries → Prop) : Value → Prop
  | scalar (s : Scalar) : EachTable p (.scalar s)
  | array {ofTables : Bool} {items : List Value} (h : ∀ v ∈ items, EachTable p v) :
    EachTable p (.array ofTables items)
  | table {style : TableStyle} {entries : Entries} (hp : p entries)
    (h : ∀ e ∈ entries, EachTable p e.2) : EachTable p (.table style entries)

/-- Whether no key stands twice among entries. -/
def HasDistinctKeys (entries : Entries) : Prop := entries.Pairwise fun a b => a.1 ≠ b.1

/-- Whether entries come in strict key order. -/
def InKeyOrder (entries : Entries) : Prop := entries.Pairwise fun a b => a.1 < b.1

theorem InKeyOrder.hasDistinctKeys {entries : Entries} (h : InKeyOrder entries) :
    HasDistinctKeys entries := by
  refine h.imp fun {a b} hlt heq => ?_
  rw [heq] at hlt
  exact String.lt_irrefl _ hlt

theorem Value.EachTable.mono {p q : Entries → Prop} (hpq : ∀ entries, p entries → q entries)
    {v : Value} (h : v.EachTable p) : v.EachTable q := by
  induction h with
  | scalar s => exact .scalar s
  | array _ ih => exact .array ih
  | table hp _ ih => exact .table (hpq _ hp) ih

/-- Entries in key order whose values have all their tables in key order. -/
structure Ordered (entries : Entries) : Prop where
  inOrder : InKeyOrder entries
  values : ∀ e ∈ entries, e.2.EachTable InKeyOrder

namespace Ordered

variable {entries : Entries} {name : String} {v : Value}

theorem table (h : Ordered entries) (style : TableStyle) :
    (Value.table style entries).EachTable InKeyOrder :=
  .table h.inOrder h.values

theorem of_table {style : TableStyle} (h : (Value.table style entries).EachTable InKeyOrder) :
    Ordered entries := by
  cases h with
  | table hp h => exact ⟨hp, h⟩

theorem nil : Ordered [] := ⟨.nil, fun _ h => absurd h List.not_mem_nil⟩

theorem insert (h : Ordered entries) (name : String) (hv : v.EachTable InKeyOrder) :
    Ordered (insertEntry name v entries) where
  inOrder := KeyMap.sorted_insertEntry name v h.inOrder
  values e he := by
    rcases KeyMap.mem_insertEntry he with rfl | he
    · exact hv
    · exact h.values e he

theorem of_lookup (h : Ordered entries) (hv : entries.lookup name = some v) :
    v.EachTable InKeyOrder := by
  obtain ⟨before, behind, rfl, -⟩ := List.lookup_eq_some_iff.1 hv
  exact h.values (name, v) (List.mem_append_right _ List.mem_cons_self)

end Ordered

/-! ### Building the tree -/

/-- What each of several steps keeps stands at the end. -/
theorem of_foldlM {α β : Type} {P : β → Prop} {f : β → α → Option β} {as : List α}
    (hf : ∀ a ∈ as, ∀ b b', P b → f b a = some b' → P b') {b b' : β} (hb : P b)
    (h : as.foldlM f b = some b') : P b' := by
  induction as generalizing b with
  | nil =>
    cases h
    exact hb
  | cons a rest ih =>
    rw [List.foldlM_cons] at h
    obtain ⟨next, hnext, hrest⟩ := Option.bind_eq_some_iff.1 h
    exact ih (fun c hc => hf c (List.mem_cons_of_mem _ hc))
      (hf a List.mem_cons_self b next hb hnext) hrest

/-- A change of entries that keeps them in order, as an operation that may be refused. -/
def KeepsOrder (change : TableStyle → Entries → Option Entries) : Prop :=
  ∀ style entries entries', Ordered entries → change style entries = some entries' →
    Ordered entries'

/-- The tables on the way stay in order if the one at its end does. -/
theorem KeepsOrder.alter {change : TableStyle → Entries → Option Entries}
    (hchange : KeepsOrder change) (route : Route) (way : List String) :
    KeepsOrder (alter route change way) := by
  intro style entries entries' hentries h
  induction way generalizing style entries entries' with
  | nil => exact hchange style entries entries' hentries h
  | cons name way ih =>
    unfold Toml.alter at h
    cases hlookup : entries.lookup name with
    | none =>
      rw [hlookup] at h
      obtain ⟨inner, hinner, heq⟩ := Option.bind_eq_some_iff.1 h
      cases heq
      exact hentries.insert name ((ih _ _ _ .nil hinner).table _)
    | some v =>
      rw [hlookup] at h
      have hv := hentries.of_lookup hlookup
      cases v with
      | scalar s => cases h
      | table style' inner =>
        dsimp only at h
        split at h
        · obtain ⟨inner', hinner, heq⟩ := Option.bind_eq_some_iff.1 h
          cases heq
          exact hentries.insert name ((ih _ _ _ (.of_table hv) hinner).table _)
        · cases h
      | array ofTables items =>
        cases ofTables with
        | false => cases h
        | true =>
          cases hv with
          | array hitems =>
            dsimp only at h
            split at h
            · rename_i style' inner hlast
              obtain ⟨inner', hinner, heq⟩ := Option.bind_eq_some_iff.1 h
              cases heq
              have hinner' := ih _ _ _ (.of_table (hitems _ (List.mem_of_getLast? hlast))) hinner
              refine hentries.insert name (.array fun w hw => ?_)
              rcases List.mem_append.1 hw with hw | hw
              · exact hitems w (List.dropLast_subset _ hw)
              · rw [List.mem_singleton.1 hw]
                exact hinner'.table _
            · cases h

theorem keepsOrder_addSetting (route : Route) {s : Setting} (hs : s.value.EachTable InKeyOrder) :
    KeepsOrder fun style entries => addSetting route style entries s := by
  refine KeepsOrder.alter (fun style entries entries' hentries h => ?_) route s.way
  split at h
  · cases h
  · cases h
    exact hentries.insert s.key hs

section settings

variable {settings : List Setting} (hsettings : ∀ s ∈ settings, s.value.EachTable InKeyOrder)
include hsettings

theorem ordered_addSettings {entries entries' : Entries} (hentries : Ordered entries)
    (h : addSettings settings entries = some entries') : Ordered entries' :=
  of_foldlM (fun s hs b b' hb hstep => keepsOrder_addSetting _ (hsettings s hs) _ b b' hb hstep)
    hentries h

theorem ordered_ofInlineSettings {entries : Entries}
    (h : ofInlineSettings settings = some entries) : Ordered entries :=
  of_foldlM (fun s hs b b' hb hstep => keepsOrder_addSetting _ (hsettings s hs) _ b b' hb hstep)
    .nil h

end settings

theorem ordered_addSection {s : Section} (hs : ∀ t ∈ s.settings, t.value.EachTable InKeyOrder)
    {document document' : Entries} (hdocument : Ordered document)
    (h : addSection document s = some document') : Ordered document' := by
  obtain ⟨header, settings⟩ := s
  cases header with
  | document => exact ordered_addSettings hs hdocument h
  | table way key =>
    refine KeepsOrder.alter (fun style parent parent' hparent hchange => ?_) .header way .header
      document document' hdocument h
    have hput {start : Entries} (hstart : Ordered start)
        (hparent' : ((addSettings settings start).bind fun inner =>
          some (insertEntry key (.table .header inner) parent)) = some parent') :
        Ordered parent' := by
      obtain ⟨inner, hinner, heq⟩ := Option.bind_eq_some_iff.1 hparent'
      cases heq
      exact hparent.insert key ((ordered_addSettings hs hstart hinner).table _)
    dsimp only at hchange
    split at hchange
    · exact hput .nil hchange
    · rename_i hlookup
      exact hput (.of_table (hparent.of_lookup hlookup)) hchange
    · cases hchange
  | tableOfArray way key =>
    refine KeepsOrder.alter (fun style parent parent' hparent hchange => ?_) .header way .header
      document document' hdocument h
    have hput {earlier : List Value} (hearlier : ∀ v ∈ earlier, v.EachTable InKeyOrder)
        (hparent' : ((addSettings settings []).bind fun inner =>
          some (insertEntry key (.array true (earlier ++ [.table .header inner])) parent)) =
          some parent') : Ordered parent' := by
      obtain ⟨inner, hinner, heq⟩ := Option.bind_eq_some_iff.1 hparent'
      cases heq
      refine hparent.insert key (.array (List.forall_mem_append.2 ⟨hearlier, ?_⟩))
      exact List.forall_mem_singleton.2 ((ordered_addSettings hs .nil hinner).table _)
    dsimp only at hchange
    split at hchange
    · exact hput (fun v hv => absurd hv List.not_mem_nil) hchange
    · rename_i items hlookup
      cases hparent.of_lookup hlookup with
      | array hitems => exact hput hitems hchange
    · cases hchange

theorem ordered_ofSections {sections : List Section}
    (h : ∀ s ∈ sections, ∀ t ∈ s.settings, t.value.EachTable InKeyOrder) {document : Entries}
    (hdocument : ofSections sections = some document) : Ordered document :=
  of_foldlM (fun s hs _ _ hb hstep => ordered_addSection (h s hs) hb hstep) .nil hdocument

/-! ### Reading values -/

/-- Whether a reader gives values with their tables in key order. -/
def ReadsOrder (readValue : ValueReader) : Prop :=
  ∀ cs v rest, readValue cs = some (v, rest) → v.EachTable InKeyOrder

section reader

variable {readValue : ValueReader} (hvalue : ReadsOrder readValue)
include hvalue

theorem ReadsOrder.items {fuel : Nat} {cs rest : List Char} {items : List Value}
    (h : readItems readValue fuel cs = some (items, rest)) :
    ∀ v ∈ items, v.EachTable InKeyOrder := by
  induction fuel generalizing cs items with
  | zero => cases h
  | succ fuel ih =>
    unfold readItems at h
    obtain ⟨start, -, h⟩ := Option.bind_eq_some_iff.1 h
    split at h
    · cases h
      exact fun v hv => absurd hv List.not_mem_nil
    · obtain ⟨⟨item, behind⟩, hitem, h⟩ := Option.bind_eq_some_iff.1 h
      obtain ⟨next, -, h⟩ := Option.bind_eq_some_iff.1 h
      have hfirst := hvalue _ _ _ hitem
      split at h
      · obtain ⟨⟨others, last⟩, hothers, h⟩ := Option.bind_eq_some_iff.1 h
        cases h
        exact List.forall_mem_cons.2 ⟨hfirst, ih hothers⟩
      · cases h
        exact List.forall_mem_singleton.2 hfirst
      · cases h

theorem ReadsOrder.setting {cs rest : List Char} {s : Setting}
    (h : readSetting readValue cs = some (s, rest)) : s.value.EachTable InKeyOrder := by
  unfold readSetting at h
  obtain ⟨⟨way, key, behind⟩, -, h⟩ := Option.bind_eq_some_iff.1 h
  dsimp only at h
  split at h
  · obtain ⟨⟨value, last⟩, hread, h⟩ := Option.bind_eq_some_iff.1 h
    cases h
    exact hvalue _ _ _ hread
  · cases h

theorem ReadsOrder.inlineSettings {fuel : Nat} {cs rest : List Char} {settings : List Setting}
    (h : readInline readValue fuel cs = some (settings, rest)) :
    ∀ s ∈ settings, s.value.EachTable InKeyOrder := by
  induction fuel generalizing cs settings with
  | zero => cases h
  | succ fuel ih =>
    unfold readInline at h
    obtain ⟨start, -, h⟩ := Option.bind_eq_some_iff.1 h
    split at h
    · cases h
      exact fun s hs => absurd hs List.not_mem_nil
    · obtain ⟨⟨setting, behind⟩, hsetting, h⟩ := Option.bind_eq_some_iff.1 h
      obtain ⟨next, -, h⟩ := Option.bind_eq_some_iff.1 h
      have hfirst := hvalue.setting hsetting
      split at h
      · obtain ⟨⟨others, last⟩, hothers, h⟩ := Option.bind_eq_some_iff.1 h
        cases h
        exact List.forall_mem_cons.2 ⟨hfirst, ih hothers⟩
      · cases h
        exact List.forall_mem_singleton.2 hfirst
      · cases h

end reader

/-- Values are read in order at every level of nesting. -/
theorem readsOrder_readValue (levels : Nat) : ReadsOrder (readValue levels) := by
  have hscalar {cs rest : List Char} {v : Value}
      (h : ((readScalar? cs).map fun r => (Value.scalar r.1, r.2)) = some (v, rest)) :
      v.EachTable InKeyOrder := by
    obtain ⟨r, -, heq⟩ := Option.map_eq_some_iff.1 h
    cases heq
    exact .scalar r.1
  induction levels with
  | zero =>
    intro cs v rest h
    unfold readValue at h
    split at h
    · cases h
    · cases h
    · contradiction
    · contradiction
    · exact hscalar h
  | succ levels ih =>
    intro cs v rest h
    unfold readValue at h
    split at h
    · contradiction
    · contradiction
    · rename_i levels' cs' hlevels
      cases hlevels
      obtain ⟨⟨items, behind⟩, hitems, heq⟩ := Option.map_eq_some_iff.1 h
      cases heq
      exact .array (ih.items hitems)
    · rename_i levels' cs' hlevels
      cases hlevels
      obtain ⟨⟨settings, behind⟩, hsettings, h⟩ := Option.bind_eq_some_iff.1 h
      obtain ⟨entries, hentries, h⟩ := Option.bind_eq_some_iff.1 h
      cases h
      exact (ordered_ofInlineSettings (ih.inlineSettings hsettings) hentries).table .inline
    · exact hscalar h

/-! ### Reading documents -/

/-- Whether the value of a line, if it is a setting, has its tables in key order. -/
def Line.IsOrdered : Line → Prop
  | header _ => True
  | setting s => s.value.EachTable InKeyOrder

theorem isOrdered_readLine {cs rest : List Char} {line : Line}
    (h : readLine cs = some (line, rest)) : line.IsOrdered := by
  unfold readLine at h
  split at h
  · obtain ⟨⟨header, behind⟩, -, h⟩ := Option.bind_eq_some_iff.1 h
    obtain ⟨last, -, h⟩ := Option.bind_eq_some_iff.1 h
    cases h
    trivial
  · obtain ⟨⟨header, behind⟩, -, h⟩ := Option.bind_eq_some_iff.1 h
    obtain ⟨last, -, h⟩ := Option.bind_eq_some_iff.1 h
    cases h
    trivial
  · obtain ⟨⟨setting, behind⟩, hsetting, h⟩ := Option.bind_eq_some_iff.1 h
    obtain ⟨last, -, h⟩ := Option.bind_eq_some_iff.1 h
    cases h
    exact (readsOrder_readValue maxNesting).setting hsetting

theorem isOrdered_readDocument {fuel : Nat} {cs : List Char} {lines : List Line}
    (h : readDocument fuel cs = some lines) : ∀ line ∈ lines, line.IsOrdered := by
  induction fuel generalizing cs lines with
  | zero => cases h
  | succ fuel ih =>
    unfold readDocument at h
    obtain ⟨start, -, h⟩ := Option.bind_eq_some_iff.1 h
    split at h
    · cases h
      exact fun line hline => absurd hline List.not_mem_nil
    · obtain ⟨⟨line, behind⟩, hline, h⟩ := Option.bind_eq_some_iff.1 h
      obtain ⟨others, hothers, h⟩ := Option.bind_eq_some_iff.1 h
      cases h
      exact List.forall_mem_cons.2 ⟨isOrdered_readLine hline, ih hothers⟩

/-- Lines in order make settings in order, above the first header and below each. -/
theorem isOrdered_group {lines : List Line} (h : ∀ line ∈ lines, line.IsOrdered) :
    (∀ s ∈ (group lines).1, s.value.EachTable InKeyOrder) ∧
      ∀ t ∈ (group lines).2, ∀ s ∈ t.settings, s.value.EachTable InKeyOrder := by
  induction lines with
  | nil =>
    exact ⟨fun s hs => absurd hs List.not_mem_nil, fun t ht => absurd ht List.not_mem_nil⟩
  | cons line rest ih =>
    obtain ⟨hline, hrest⟩ := List.forall_mem_cons.1 h
    obtain ⟨hfront, hsections⟩ := ih hrest
    cases line with
    | setting s => exact ⟨List.forall_mem_cons.2 ⟨hline, hfront⟩, hsections⟩
    | header header =>
      exact ⟨fun s hs => absurd hs List.not_mem_nil,
        List.forall_mem_cons.2 ⟨hfront, hsections⟩⟩

/-- **A document is read to a tree** in whose tables the entries come in strict key order. -/
theorem inKeyOrder_of_read? {text : String} {entries : Entries} (h : read? text = some entries) :
    (Value.table .header entries).EachTable InKeyOrder := by
  unfold read? at h
  obtain ⟨lines, hlines, hsections⟩ := Option.bind_eq_some_iff.1 h
  obtain ⟨hfront, hrest⟩ := isOrdered_group (isOrdered_readDocument hlines)
  exact (ordered_ofSections (List.forall_mem_cons.2 ⟨hfront, hrest⟩) hsections).table .header

end LayeredConfig.Toml
