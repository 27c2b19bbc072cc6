import LayeredConfig.Proofs.Secrecy.Work

/-! # A concealed key tells nothing

Two runs of a program make the same calls of contexts that are put together alike, from sources,
loads, writes and edits in place that differ at most in the texts of one key. If the filters are those of the
library and one of them masks the key or always drops it, and resolvers are functions, then both
runs are told the same (`told_eq_of_alikeBut`): the key tells nothing of its text, neither by its
own value nor through placeholders, snapshots, bound tables or the changes that listeners hear
of. -/

namespace LayeredConfig

open List (Forall₂)

variable {k : String}

/-- Calls that differ at most in the texts of one key. -/
inductive Call.AlikeBut (k : String) : Call → Call → Prop
  | commit {cs ds : List Change} (h : Forall₂ (Change.AlikeBut k) cs ds) :
    AlikeBut k (.commit cs) (.commit ds)
  | reload : AlikeBut k .reload .reload
  | startReload : AlikeBut k .startReload .startReload
  | finishReload (number : Nat) {a b : Loaded} (h : a.AlikeBut k b) :
    AlikeBut k (.finishReload number a) (.finishReload number b)
  | refresh : AlikeBut k .refresh .refresh
  | getValue (key : String) : AlikeBut k (.getValue key) (.getValue key)
  | get (key : String) : AlikeBut k (.get key) (.get key)
  | properties : AlikeBut k .properties .properties
  | sources : AlikeBut k .sources .sources
  | bind (fields : List Field) : AlikeBut k (.bind fields) (.bind fields)
  | listen (label : String) (reads : List String) (leaves : Bool) {a b : Option Change}
    (h : Option.Rel (Change.AlikeBut k) a b) :
    AlikeBut k (.listen label reads leaves a) (.listen label reads leaves b)
  | leave (label : String) : AlikeBut k (.leave label) (.leave label)
  | arm {cs ds : List Change} (h : Forall₂ (Change.AlikeBut k) cs ds) :
    AlikeBut k (.arm cs) (.arm ds)
  | edit {w x : Writable} (h : w.AlikeBut k x) : AlikeBut k (.edit w) (.edit x)

namespace Live

variable {l l' : Live}

theorem agree_dismissLabel (h : l.AlikeBut k l') (label : String) :
    Agree k l l' (dismissLabel label) (dismissLabel label) := by
  unfold dismissLabel
  refine .get_bind ?_
  rw [h.listeners]
  split
  · exact .pure h false
  · exact (agree_dismiss h _).bind fun _ m m' hm => .pure hm true

theorem agree_listen (h : l.AlikeBut k l') (label : String) (reads : List String) (leaves : Bool)
    {a b : Option Change} (hab : Option.Rel (Change.AlikeBut k) a b) :
    Agree k l l' (listen label reads leaves a) (listen label reads leaves b) := by
  have hnew : Forall₂ (fun a b => a.1 = b.1 ∧ a.2.AlikeBut k b.2)
      (a.map (l.nextListener, ·)).toList (b.map (l'.nextListener, ·)).toList := by
    cases hab with
    | none => exact .nil
    | some hab => exact .cons ⟨h.nextListener, hab⟩ .nil
  refine .modify { h with
    listeners := ?_
    nextListener := congrArg Nat.succ h.nextListener
    answers := List.rel_append h.answers hnew }
  rw [h.listeners, h.nextListener]

theorem agree_arm (h : l.AlikeBut k l') {cs ds : List Change}
    (hcs : Forall₂ (Change.AlikeBut k) cs ds) : Agree k l l' (arm cs) (arm ds) :=
  .modify { h with armed := .some hcs }

theorem agree_edit (h : l.AlikeBut k l') {w x : Writable} (hwx : w.AlikeBut k x) :
    Agree k l l' (edit w) (edit x) :=
  .modify { h with store := h.store.edited hwx }

/-- A call is answered alike. -/
theorem agree_perform (hk : k ≠ ordinalKey) (h : l.AlikeBut k l') {call call' : Call}
    (hcall : call.AlikeBut k call') : Agree k l l' (perform call) (perform call') := by
  have hreturn {α : Type} {y y' : StateM Live α} (hy : Agree k l l' y y') (f : α → Answer) :
      Agree k l l' (do return f (← y)) (do return f (← y')) :=
    hy.bind fun a m m' hm => .pure hm (f a)
  cases hcall with
  | commit hcs => exact hreturn (writesAgree_commit hk _ _ hcs l l' h) _
  | reload => exact hreturn (agree_reload hk h) _
  | startReload => exact hreturn (agree_startReload h) _
  | finishReload number hab => exact hreturn (agree_finishReload hk h number hab) _
  | refresh => exact hreturn (agree_refresh h) _
  | getValue key => exact hreturn (agree_getValueBy commit commit h key) _
  | get key => exact hreturn (agree_getBy commit commit h key) _
  | properties => exact hreturn (agree_snapshotBy commit commit h) _
  | sources =>
    refine .get_bind ?_
    rw [h.store.published.summary]
    exact .pure h _
  | bind fields =>
    have hget := fun key (m m' : Live) (hm : m.AlikeBut k m') =>
      agree_getBy commit commit hm key
    exact hreturn (agree_readAfter hget h ∅ fields) _
  | listen label reads leaves hab =>
    exact (agree_listen h label reads leaves hab).bind fun _ m m' hm => .pure hm _
  | leave label => exact hreturn (agree_dismissLabel h label) _
  | arm hcs => exact (agree_arm h hcs).bind fun _ m m' hm => .pure hm _
  | edit hwx => exact (agree_edit h hwx).bind fun _ m m' hm => .pure hm _

theorem agree_performAll (hk : k ≠ ordinalKey) (h : l.AlikeBut k l') {calls calls' : List Call}
    (hcalls : Forall₂ (Call.AlikeBut k) calls calls') :
    Agree k l l' (performAll calls) (performAll calls') := by
  unfold performAll
  induction hcalls generalizing l l' with
  | nil => exact .pure h _
  | cons hcall _ ih =>
    rw [List.mapM_cons, List.mapM_cons]
    exact (agree_perform hk h hcall).bind fun answer m m' hm =>
      (ih hm).bind fun answers n n' hn => .pure hn _

end Live

/-! ### Programs -/

namespace Builder

/-- Builders, each with its own files, of sources and providers that differ at most in the texts of
one key. -/
structure AlikeBut (k : String) (files files' : FileTree) (b b' : Builder) : Prop where
  sources : Forall₂ (Source.AlikeBut k) b.sources b'.sources
  writable : Option.Rel (Writable.AlikeBut k) b.writable b'.writable
  providers : Forall₂ (Provider.AlikeBut k files files') b.providers b'.providers
  filters : b.filters = b'.filters
  hidesReserved : b.hidesReserved = b'.hidesReserved
  resolvers : b.resolvers = b'.resolvers
  mask : b.mask = b'.mask

variable {files files' : FileTree} {b b' : Builder}

theorem conceals_pipeline (hbuiltin : ∀ f ∈ b.filters, f.IsBuiltin)
    (hhides : ∃ f ∈ b.filters, f.Hides k) : b.setup.pipeline.Conceals k := by
  refine Pipeline.conceals_ofFilters (fun f hf => ?_) ?_
  · rcases List.mem_append.1 hf with hf | hf
    · exact hbuiltin f hf
    · split at hf
      · rw [List.mem_singleton.1 hf]
        exact .reserved
      · exact absurd hf List.not_mem_nil
  · obtain ⟨f, hf, h⟩ := hhides
    exact ⟨f, List.mem_append_left _ hf, h⟩

/-- Builders that are alike fail alike, or both give contexts at work that are alike. -/
theorem AlikeBut.build (hk : k ≠ ordinalKey) (h : b.AlikeBut k files files' b')
    (hbuiltin : ∀ f ∈ b'.filters, f.IsBuiltin) (hhides : ∃ f ∈ b'.filters, f.Hides k)
    (hresolvers : ∀ r ∈ b'.resolvers, r.IsFunction files files') :
    (∃ e, b.build files = .error e ∧ b'.build files' = .error e) ∨
    ∃ built built', b.build files = .ok built ∧ b'.build files' = .ok built' ∧
      Live.AlikeBut k { setup := built.1, store := built.2, files }
        { setup := built'.1, store := built'.2, files := files' } := by
  have hloaded := Provider.alikeBut_loadAll h.providers b.timeout b'.timeout 0
  have hfails : (Provider.allFailed b.providers (b.setup.load 0 files) && b.sources.isEmpty) =
      (Provider.allFailed b'.providers (b'.setup.load 0 files') && b'.sources.isEmpty) := by
    rw [isEmpty_eq_of_forall₂ h.sources]
    exact congrArg (· && _) (Provider.alikeBut_allFailed h.providers hloaded)
  unfold Builder.build
  dsimp only
  rw [hfails]
  cases Provider.allFailed b'.providers (b'.setup.load 0 files') && b'.sources.isEmpty with
  | true =>
    refine .inl ⟨_, rfl, ?_⟩
    rw [h.providers.length_eq]
    rfl
  | false =>
    refine .inr ⟨_, _, rfl, rfl, ?_⟩
    exact {
      providers := h.providers
      pipeline := by
        unfold Builder.setup
        rw [h.filters, h.hidesReserved]
      resolvers := h.resolvers
      mask := h.mask
      conceals := conceals_pipeline hbuiltin hhides
      functions := hresolvers
      functions' := fun r hr => (hresolvers r hr).right
      store := .initial hk h.sources h.writable hloaded
      listeners := rfl
      nextListener := rfl
      answers := .nil
      armed := .none
      log := rfl }

/-- **A concealed key tells nothing.** Two programs that make calls of contexts whose sources, loads,
writes and edits in place differ at most in the texts of one key are told the same, if the filters
are those of the library, one of them masks the key or always drops it, and resolvers are
functions. -/
theorem told_eq_of_alikeBut (hk : k ≠ ordinalKey) (h : b.AlikeBut k files files' b')
    (hbuiltin : ∀ f ∈ b.filters, f.IsBuiltin) (hhides : ∃ f ∈ b.filters, f.Hides k)
    (hresolvers : ∀ r ∈ b.resolvers, r.IsFunction files files') {calls calls' : List Call}
    (hcalls : Forall₂ (Call.AlikeBut k) calls calls') :
    b.told files calls = b'.told files' calls' := by
  rw [h.filters] at hbuiltin hhides
  rw [h.resolvers] at hresolvers
  unfold told
  rcases h.build hk hbuiltin hhides hresolvers with ⟨e, he, he'⟩ | ⟨built, built', hb, hb', hl⟩
  · rw [he, he']
    rfl
  · obtain ⟨answers, m, m', hrun, hrun', hm⟩ := Live.agree_performAll hk hl hcalls
    rw [hb, hb']
    simp only [Except.map, hrun, hrun']
    exact congrArg (fun log => Except.ok (answers, log)) hm.log

/-- A table with a password, and with an address that the password goes into. -/
def vault (password : String) : Table :=
  .ofPairs "vault" [("address", "db://${conf:password}@host"), ("password", password)]

/-- A context of that table, which masks the password. -/
def vaulted (password : String) : Builder where
  sources := [(vault password).toSource (.object 0)]
  writable := some ⟨.object 0, vault password⟩
  filters := [Masking.toFilter { tests := [fun key => key = "password"] }]
  resolvers := [.function .conf]

theorem alikeBut_vault (one other : String) : (vault one).AlikeBut "password" (vault other) := by
  have hpairs : Forall₂ (KeyMap.EntryRel (SameBut "password"))
      [("address", "db://${conf:password}@host"), ("password", one)]
      [("address", "db://${conf:password}@host"), ("password", other)] :=
    .cons ⟨rfl, fun _ => rfl⟩ (.cons ⟨rfl, fun h => absurd rfl h⟩ .nil)
  exact ⟨rfl, rfl, rfl, rfl, KeyMap.Rel.empty.insertAll hpairs⟩

theorem alikeBut_vaulted (one other : String) :
    (vaulted one).AlikeBut "password" .empty .empty (vaulted other) :=
  ⟨.cons ((alikeBut_vault one other).toSource _) .nil, .some ⟨rfl, alikeBut_vault one other⟩, .nil,
    rfl, rfl, rfl, rfl⟩

/-- Calls that edit the password in place and write it. -/
def passing (one other : String) : List Call :=
  [.get "address", .edit ⟨.object 0, vault one⟩, .commit [.put "password" other], .properties,
    .get "password"]

/-- Programs with different passwords, which they also edit and write, are told the same address. -/
theorem told_vaulted :
    ∃ answers log,
      (vaulted "hunter2").told .empty (passing "hunter3" "x") = .ok (answers, log) ∧
      (vaulted "swordfish").told .empty (passing "tuna" "y") = .ok (answers, log) ∧
      (answers.filterMap fun
        | .text text => text
        | _ => none) = ["db://*****@host", "*****"] := by
  have hcalls : Forall₂ (Call.AlikeBut "password") (passing "hunter3" "x") (passing "tuna" "y") :=
    .cons (.get _) (.cons (.edit ⟨rfl, alikeBut_vault _ _⟩)
      (.cons (.commit (.cons (.put fun h => absurd rfl h) .nil))
        (.cons .properties (.cons (.get _) .nil))))
  have hsame := told_eq_of_alikeBut (by decide) (alikeBut_vaulted "hunter2" "swordfish")
    (fun f hf => List.mem_singleton.1 hf ▸ .masking _)
    ⟨_, List.mem_singleton.2 rfl, .masked _ (by decide +kernel)⟩
    (fun r hr => List.mem_singleton.1 hr ▸ trivial) hcalls
  have hanswers : (((vaulted "hunter2").told .empty (passing "hunter3" "x")).map
        fun told => told.1.filterMap fun
          | .text text => text
          | _ => none).toOption = some ["db://*****@host", "*****"] := by decide +kernel
  cases htold : (vaulted "hunter2").told .empty (passing "hunter3" "x") with
  | error e =>
    rw [htold] at hanswers
    cases hanswers
  | ok told =>
    rw [htold] at hanswers
    exact ⟨told.1, told.2, rfl, hsame.symm.trans htold, Option.some.inj hanswers⟩

end Builder

end LayeredConfig
