import LayeredConfig.Proofs.Evaluator.Reference
import LayeredConfig.Proofs.Live.Readings
import LayeredConfig.Proofs.SourceSet.Replacement

/-! # The order of registration

A builder is told of its parts one by one. What it makes of them does not depend on their order
(`told_eq_of_reordered`), as each kind of part is brought into an order of its own: sources by
ordinal and name, filters by priority and name, and of resolvers the last one of each id stays,
whatever its place. The names of sources must differ for this, and so must the filters in priority
or name, because what is equal in order keeps the order of registration.

`Builder.ofParts` makes a builder from the list of its parts, and each field is read off the list
(`sources_ofParts` and its neighbours). -/

namespace LayeredConfig

/-- What a builder may be told. -/
inductive Part
  | source (s : Source)
  | writable (w : Writable)
  | provider (p : Provider)
  | timeout (limit : Duration)
  | filter (f : Filter)
  /-- Snapshots show reserved keys. -/
  | reservedKeys
  | resolver (r : Registration)
  /-- The resolvers that come with the library. -/
  | builtinResolvers
  | mask (masks : Bool)

namespace Part

/-- The source of a part. A writable source is one among others. -/
def source? : Part → Option Source
  | source s => some s
  | writable w => some w.toSource
  | _ => none

def provider? : Part → Option Provider
  | provider p => some p
  | _ => none

def filter? : Part → Option Filter
  | filter f => some f
  | _ => none

def resolver? : Part → Option Registration
  | resolver r => some r
  | _ => none

def mask? : Part → Option Bool
  | mask masks => some masks
  | _ => none

def isReservedKeys : Part → Bool
  | reservedKeys => true
  | _ => false

def isBuiltinResolvers : Part → Bool
  | builtinResolvers => true
  | _ => false

end Part

namespace Builder

/-- Tells a builder of a part. The variables are those that the environment has. -/
def register (vars : Properties) (b : Builder) : Part → Builder
  | .source s => b.withSource s
  | .writable w => b.withWritable w
  | .provider p => b.withProvider p
  | .timeout limit => b.withTimeout limit
  | .filter f => b.withFilter f
  | .reservedKeys => b.withReservedKeys
  | .resolver r => b.withResolver r
  | .builtinResolvers => b.withBuiltinResolvers vars
  | .mask masks => b.withMask masks

/-- Tells a builder of parts, one behind the other. -/
def registerAll (vars : Properties) (b : Builder) (parts : List Part) : Builder :=
  parts.foldl (register vars) b

/-- The builder that was told of some parts. -/
def ofParts (vars : Properties) (parts : List Part) : Builder := registerAll vars {} parts

/-! ### The fields of a builder -/

section Fields

variable (vars : Properties)

/-- A field that every part adds to at the end. -/
theorem field_ofParts {α : Type} {field : Builder → List α} {read : Part → Option α}
    (hnew : field {} = [])
    (hadd : ∀ b part, field (register vars b part) = field b ++ (read part).toList)
    (parts : List Part) : field (ofParts vars parts) = parts.filterMap read := by
  have hall (b : Builder) : field (registerAll vars b parts) = field b ++ parts.filterMap read := by
    unfold registerAll
    induction parts generalizing b with
    | nil => exact (List.append_nil _).symm
    | cons part rest ih =>
      rw [List.foldl_cons, ih, hadd, List.append_assoc, List.filterMap_cons]
      cases read part <;> rfl
  rw [ofParts, hall, hnew, List.nil_append]

theorem sources_ofParts (parts : List Part) :
    (ofParts vars parts).sources = parts.filterMap Part.source? := by
  refine field_ofParts vars rfl (fun b part => ?_) parts
  cases part with
  | source s => rfl
  | writable w => rfl
  | _ => exact (List.append_nil _).symm

theorem providers_ofParts (parts : List Part) :
    (ofParts vars parts).providers = parts.filterMap Part.provider? := by
  refine field_ofParts vars rfl (fun b part => ?_) parts
  cases part with
  | provider p => rfl
  | _ => exact (List.append_nil _).symm

theorem filters_ofParts (parts : List Part) :
    (ofParts vars parts).filters = parts.filterMap Part.filter? := by
  refine field_ofParts vars rfl (fun b part => ?_) parts
  cases part with
  | filter f => rfl
  | _ => exact (List.append_nil _).symm

theorem hidesReserved_ofParts (parts : List Part) :
    (ofParts vars parts).hidesReserved = !parts.any Part.isReservedKeys := by
  have hall (b : Builder) : (registerAll vars b parts).hidesReserved =
      (b.hidesReserved && !parts.any Part.isReservedKeys) := by
    unfold registerAll
    induction parts generalizing b with
    | nil => exact (Bool.and_true _).symm
    | cons part rest ih =>
      rw [List.foldl_cons, ih, List.any_cons]
      cases part with
      | reservedKeys => exact (Bool.and_false _).symm
      | _ => rfl
  exact hall {}

theorem mask_ofParts (parts : List Part) :
    (ofParts vars parts).mask = (parts.filterMap Part.mask?).getLastD true := by
  have hall (b : Builder) :
      (registerAll vars b parts).mask = (parts.filterMap Part.mask?).getLastD b.mask := by
    unfold registerAll
    induction parts generalizing b with
    | nil => rfl
    | cons part rest ih =>
      rw [List.foldl_cons, ih, List.filterMap_cons]
      cases part with
      | mask masks => exact (List.getLastD_cons ..).symm
      | _ => rfl
  exact hall {}

end Fields

end Builder

/-! ### Resolvers -/

namespace Registration

/-- The id under which a resolver is registered. -/
def id : Registration → String
  | function r => r.id
  | files => "file"
  | hook id => id

theorem id_resolver {m : Type → Type} [Monad m] (files : FileTree) (act : m (Result Unit))
    (r : Registration) : (r.resolver files act).id = r.id := by
  cases r <;> rfl

/-- The resolver of an id that was registered last. -/
def lastOf (id : String) (rs : List Registration) : Option Registration :=
  rs.reverse.find? fun r => r.id = id

theorem lastOf_append (id : String) (rs ss : List Registration) :
    lastOf id (rs ++ ss) = (lastOf id ss).or (lastOf id rs) := by
  unfold lastOf
  rw [List.reverse_append, List.find?_append]

theorem lastOf_cons (id : String) (r : Registration) (rs : List Registration) :
    lastOf id (r :: rs) = (lastOf id rs).or (lastOf id [r]) := lastOf_append id [r] rs

/-- The resolver that stays under an id is the last one. -/
theorem get?_byId {m : Type → Type} [Monad m] (files : FileTree) (act : m (Result Unit))
    (rs : List Registration) (id : String) :
    (Evaluator.ofResolvers (rs.map (·.resolver files act))).byId.get? id =
      (lastOf id rs).map (·.resolver files act) := by
  have hbyId : (Evaluator.ofResolvers (rs.map (·.resolver files act))).byId =
      .ofList ((rs.map (·.resolver files act)).map fun r => (r.id, r)) := rfl
  rw [hbyId, KeyMap.get?_ofList, List.map_map, ← List.map_reverse, lastOf]
  induction rs.reverse with
  | nil => rfl
  | cons r rest ih =>
    rw [List.map_cons, List.lookup_cons, List.find?_cons, ih]
    simp only [Function.comp, id_resolver]
    by_cases h : r.id = id
    · simp [h]
    · simp [h, beq_false_of_ne (Ne.symm h)]

end Registration

namespace Evaluator

variable {m : Type → Type}

/-- The resolvers of an evaluator may be gone through in any order: no two have one id, so the chain
is sorted in one way. -/
theorem sort_eq_chain_of_perm {resolvers rs : List (Resolver m)}
    (h : rs.Perm (ofResolvers resolvers).byId.values) :
    Order.sort notAfter (rs.filter (·.isInChain)) = (ofResolvers resolvers).chain := by
  refine Order.sort_eq_of_perm notAfter_preorder (h.filter _) fun a ha b hb hab hba => ?_
  have hid : ∀ r ∈ rs.filter (·.isInChain), (ofResolvers resolvers).byId.get? r.id = some r := by
    intro r hr
    obtain ⟨id, hget⟩ := KeyMap.mem_values_iff.1 (h.mem_iff.1 (List.mem_of_mem_filter hr))
    rwa [(mem_of_get?_ofResolvers hget).2]
  have heq : a.id = b.id := by
    simp only [notAfter, Bool.or_eq_true, Bool.and_eq_true, decide_eq_true_eq] at hab hba
    rcases hab with h | ⟨h, hn⟩
    · rcases hba with h' | ⟨h', -⟩ <;> omega
    · rcases hba with h' | ⟨-, hn'⟩
      · omega
      · exact String.le_antisymm hn hn'
  exact Option.some.inj ((hid a ha).symm.trans (heq ▸ hid b hb))

/-- An evaluator is determined by the resolver that it has under each id. -/
theorem ofResolvers_congr {rs ss : List (Resolver m)}
    (h : ∀ id, (ofResolvers rs).byId.get? id = (ofResolvers ss).byId.get? id) :
    ofResolvers rs = ofResolvers ss := by
  have hbyId : KeyMap.ofList (rs.map fun r => (r.id, r)) =
      KeyMap.ofList (ss.map fun r => (r.id, r)) := KeyMap.ext_get? h
  unfold ofResolvers
  rw [hbyId]

end Evaluator

namespace Builder

theorem lastOf_ofParts (vars : Properties) (parts : List Part) (id : String) :
    Registration.lastOf id (ofParts vars parts).resolvers =
      (Registration.lastOf id (parts.filterMap Part.resolver?)).or
        (if parts.any Part.isBuiltinResolvers then
          Registration.lastOf id (Registration.builtin vars) else none) := by
  have hall (b : Builder) : Registration.lastOf id (registerAll vars b parts).resolvers =
      (Registration.lastOf id (parts.filterMap Part.resolver?)).or
        ((Registration.lastOf id b.resolvers).or (if parts.any Part.isBuiltinResolvers then
          Registration.lastOf id (Registration.builtin vars) else none)) := by
    unfold registerAll
    induction parts generalizing b with
    | nil => exact (Option.or_none).symm
    | cons part rest ih =>
      rw [List.foldl_cons, ih, List.filterMap_cons, List.any_cons]
      cases part with
      | resolver r =>
        simp only [register, withResolver, Part.resolver?, Part.isBuiltinResolvers, Bool.false_or]
        rw [Registration.lastOf_append, Registration.lastOf_cons id r (rest.filterMap _),
          Option.or_assoc, Option.or_assoc]
      | builtinResolvers =>
        simp only [register, withBuiltinResolvers, Part.resolver?, Part.isBuiltinResolvers,
          Bool.true_or, if_true]
        rw [Registration.lastOf_append, Option.or_assoc]
        split <;> simp
      | _ => rfl
  exact hall {}

/-! ### Parts in another order -/

/-- The same sources, providers and filters in any order, of resolvers the same last one of each id,
and the same settings. The call for the resolvers of the library may come anywhere. -/
structure Reordered (parts parts' : List Part) : Prop where
  sources : (parts.filterMap Part.source?).Perm (parts'.filterMap Part.source?)
  providers : (parts.filterMap Part.provider?).Perm (parts'.filterMap Part.provider?)
  filters : (parts.filterMap Part.filter?).Perm (parts'.filterMap Part.filter?)
  resolvers : ∀ id, Registration.lastOf id (parts.filterMap Part.resolver?) =
    Registration.lastOf id (parts'.filterMap Part.resolver?)
  builtinResolvers : parts.any Part.isBuiltinResolvers = parts'.any Part.isBuiltinResolvers
  reservedKeys : parts.any Part.isReservedKeys = parts'.any Part.isReservedKeys
  mask : (parts.filterMap Part.mask?).getLastD true = (parts'.filterMap Part.mask?).getLastD true

theorem isOk_build (b : Builder) (files : FileTree) :
    (b.build files).isOk = !b.isStarved files := by
  unfold build isStarved
  dsimp only
  cases Provider.allFailed b.providers (b.setup.load 0 files) && b.sources.isEmpty <;> rfl

end Builder

attribute [ext] View

/-- Filters that differ in priority or name run in one order, however they are given. -/
theorem Pipeline.ofFilters_eq_of_perm {fs gs : List Filter} (hp : fs.Perm gs)
    (hn : (fs.map fun f => (f.priority, f.name)).Nodup) : ofFilters fs = ofFilters gs := by
  have hsort : Order.sort Filter.notAfter fs = Order.sort Filter.notAfter gs := by
    refine Order.sort_eq_of_perm Filter.notAfter_preorder hp fun f hf g hg hfg hgf => ?_
    refine List.inj_on_of_nodup_map hn hf hg ?_
    simp only [Filter.notAfter, Bool.or_eq_true, Bool.and_eq_true, decide_eq_true_eq] at hfg hgf
    rcases hfg with h | ⟨h, hname⟩
    · rcases hgf with h' | ⟨h', -⟩ <;> omega
    · rcases hgf with h' | ⟨-, hname'⟩
      · omega
      · exact Prod.ext h (String.le_antisymm hname hname')
  unfold ofFilters
  rw [hsort]

namespace Provider

/-- The time that a provider is given tells at most why it has no sources. -/
theorem skip_loadOne (p : Provider) (limit limit' : Duration) (number : Nat) (files : FileTree) :
    (p.loadOne limit number files).skip = (p.loadOne limit' number files).skip := by
  unfold loadOne
  cases p.load number files <;> rfl

theorem loadAll_perm {ps qs : List Provider} (h : ps.Perm qs) (limit limit' : Duration)
    (number : Nat) (files : FileTree) :
    (loadAll ps limit number files).sources.Perm (loadAll qs limit' number files).sources ∧
      (loadAll ps limit number files).failed = (loadAll qs limit' number files).failed := by
  have hresults : (ps.map fun p => (p.loadOne limit number files).skip).Perm
      (qs.map fun p => (p.loadOne limit' number files).skip) := by
    simp only [fun p : Provider => p.skip_loadOne limit limit' number files]
    exact h.map _
  exact ⟨(hresults.filterMap id).flatten, hresults.countP_eq _⟩

end Provider

/-- Sources with distinct names, given in any order, make one set. -/
theorem SourceSet.ofSources_eq_of_perm {ss ts : List Source} (hp : ss.Perm ts)
    (hn : (ss.map (·.name)).Nodup) (version : Nat) :
    ofSources ss version = ofSources ts version := by
  have hsort : Order.sort Registered.notAbove (ss.map Registered.of) =
      Order.sort Registered.notAbove (ts.map Registered.of) := by
    refine Registered.sort_eq_of_perm (hp.map _) ?_
    rw [List.map_map]
    exact hn
  unfold ofSources
  rw [distinctNames_eq_self hn, distinctNames_eq_self ((hp.map _).nodup_iff.1 hn), hsort]

namespace Builder

variable {vars : Properties} {parts parts' : List Part}

namespace Reordered

variable (h : Reordered parts parts') (vars : Properties) (files : FileTree)
include h

theorem isStarved_eq :
    (ofParts vars parts).isStarved files = (ofParts vars parts').isStarved files := by
  have hfailed := (Provider.loadAll_perm h.providers (ofParts vars parts).timeout
    (ofParts vars parts').timeout 0 files).2
  unfold isStarved setup Setup.load Provider.allFailed
  dsimp only
  rw [sources_ofParts, sources_ofParts, providers_ofParts, providers_ofParts, hfailed,
    h.sources.isEmpty_eq, h.providers.isEmpty_eq, h.providers.length_eq]

theorem firstSources_perm :
    ((ofParts vars parts).firstSources files).Perm ((ofParts vars parts').firstSources files) := by
  unfold firstSources setup Setup.load
  dsimp only
  rw [sources_ofParts, sources_ofParts, providers_ofParts, providers_ofParts]
  exact h.sources.append (Provider.loadAll_perm h.providers _ _ 0 files).1

theorem stages_perm : (ofParts vars parts).stages.Perm (ofParts vars parts').stages := by
  unfold stages
  rw [filters_ofParts, filters_ofParts, hidesReserved_ofParts, hidesReserved_ofParts,
    h.reservedKeys]
  exact h.filters.append_right _

theorem evaluator_eq :
    ((ofParts vars parts).quiet files).evaluator =
      ((ofParts vars parts').quiet files).evaluator := by
  refine Evaluator.ofResolvers_congr fun id => ?_
  rw [Registration.get?_byId, Registration.get?_byId]
  show (Registration.lastOf id (ofParts vars parts).resolvers).map _ =
    (Registration.lastOf id (ofParts vars parts').resolvers).map _
  rw [lastOf_ofParts, lastOf_ofParts, h.resolvers, h.builtinResolvers]

theorem mask_eq :
    ((ofParts vars parts).quiet files).mask = ((ofParts vars parts').quiet files).mask :=
  calc
    (ofParts vars parts).mask = (parts.filterMap Part.mask?).getLastD true := mask_ofParts ..
    _ = (parts'.filterMap Part.mask?).getLastD true := h.mask
    _ = (ofParts vars parts').mask := (mask_ofParts ..).symm

end Reordered

/-- **The order of registration does not matter.** Two builders that were told of the same parts in
different orders both give contexts or both do not, and what is read of the contexts is the same:
values, texts, snapshots, and the sources that they are read from. The names of the sources differ,
and the filters differ in priority or name; of resolvers with one id only the last one counts. -/
theorem told_eq_of_reordered {files : FileTree} (h : Reordered parts parts')
    (hnames : (((ofParts vars parts).firstSources files).map (·.name)).Nodup)
    (hfilters : ((ofParts vars parts).stages.map fun f => (f.priority, f.name)).Nodup) :
    ((ofParts vars parts).build files).isOk = ((ofParts vars parts').build files).isOk ∧
      ∀ readings : List Reading,
        (ofParts vars parts).told files (readings.map Reading.call) =
          (ofParts vars parts').told files (readings.map Reading.call) := by
  have hset : (ofParts vars parts).firstSet files = (ofParts vars parts').firstSet files :=
    SourceSet.ofSources_eq_of_perm (h.firstSources_perm vars files) hnames 1
  have hpipeline : ((ofParts vars parts).quiet files).pipeline =
      ((ofParts vars parts').quiet files).pipeline :=
    Pipeline.ofFilters_eq_of_perm (h.stages_perm vars) hfilters
  have hview : (ofParts vars parts).quiet files = (ofParts vars parts').quiet files :=
    View.ext hpipeline (h.evaluator_eq vars files) (h.mask_eq vars files)
  constructor
  · rw [isOk_build, isOk_build, h.isStarved_eq vars files]
  · intro readings
    rw [told_readings, told_readings, h.isStarved_eq vars files, hset, hview, providers_ofParts,
      providers_ofParts, h.providers.length_eq]

/-- A source and a provider, filters of one priority, and a resolver that comes in place of another
one. -/
def forward : List Part :=
  [.source (.ofPairs (.object 0) "a" none [("x", "${t:q}"), ("y", "1")] false), .builtinResolvers,
    .provider (.fixed "p" [.ofPairs (.object 1) "b" (some 5) [("z", "<${x}>")] false]),
    .resolver (.function (.table "t" 0 (.ofList [("q", "old")]))),
    .filter (.veto "First" (· = "y")), .filter (.veto "Second" (· = "")),
    .resolver (.function (.table "t" 0 (.ofList [("q", "new")]))), .mask false]

/-- The same parts in another order, but for the resolver whose place is taken. -/
def backward : List Part :=
  [.resolver (.function (.table "t" 7 (.ofList [("q", "older")]))), .mask false,
    .filter (.veto "Second" (· = "")), .filter (.veto "First" (· = "y")),
    .resolver (.function (.table "t" 0 (.ofList [("q", "new")]))),
    .provider (.fixed "p" [.ofPairs (.object 1) "b" (some 5) [("z", "<${x}>")] false]),
    .source (.ofPairs (.object 0) "a" none [("x", "${t:q}"), ("y", "1")] false), .builtinResolvers]

theorem reordered_forward : Reordered forward backward where
  sources := .refl _
  providers := .refl _
  filters := .swap _ _ _
  resolvers id := by
    by_cases h : id = "t"
    · rw [h]
      rfl
    · have hnone : ∀ rs : List Registration, (∀ r ∈ rs, r.id = "t") →
          Registration.lastOf id rs = none := by
        intro rs hrs
        refine List.find?_eq_none.2 fun r hr heq => h ?_
        rw [← of_decide_eq_true heq, hrs r (List.mem_reverse.1 hr)]
      rw [hnone _ (by decide), hnone _ (by decide)]
  builtinResolvers := rfl
  reservedKeys := rfl
  mask := rfl

/-- Told of its parts in either order a builder gives a context in which the later resolver answers,
also to a key of the provider. -/
theorem told_forward :
    ∃ answers,
      (ofParts ∅ forward).told .empty ([.text "z", .text "y", .snapshot, .sources].map
        Reading.call) = .ok (answers, []) ∧
      (ofParts ∅ backward).told .empty ([.text "z", .text "y", .snapshot, .sources].map
        Reading.call) = .ok (answers, []) ∧
      (answers.filterMap fun
        | .text text => some text
        | _ => none) = [some "<new>", none] := by
  obtain ⟨-, hsame⟩ := @told_eq_of_reordered ∅ forward backward .empty reordered_forward
    (by decide) (by decide)
  have htold := told_readings (ofParts ∅ forward) .empty
    [.text "z", .text "y", .snapshot, .sources]
  have hbuilt : (ofParts ∅ forward).isStarved .empty = false := rfl
  rw [hbuilt, if_neg Bool.false_ne_true] at htold
  exact ⟨_, htold, (hsame _).symm.trans htold, by decide +kernel⟩

end Builder

end LayeredConfig
