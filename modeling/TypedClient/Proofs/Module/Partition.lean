import TypedClient.Document
import TypedClient.Proofs.Module.Assembly
import TypedClient.Proofs.Module.Sharing
import TypedClient.Proofs.Store.Emission
import TypedClient.Proofs.Walk.Operations

/-! Partition of the declarations over modules. Every module stands on what it declares and
imports, and every name that is needed is declared by exactly one module, unless the module of a
group takes the place of the shared one. -/
namespace TypedClient

open Render (Code)

namespace Module

def own (module : Module) : List String :=
  module.schemaNames.filter fun name => !module.imports.contains name

theorem mem_own {module : Module} {name : String} :
    name ∈ module.own ↔ name ∈ module.schemaNames ∧ name ∉ module.imports := by
  simp [own]

def Offers (module : Module) (name : String) : Prop :=
  name ∈ module.own ∨ name ∈ module.imports

/-- The declarations of a module: exactly its own names are written, and what they depend on, in the
graph and in the text, is declared or imported. -/
structure Declares (store : Store) (module : Module) (excluded : List String) (text : String) :
    Prop where
  written : ∃ items, store.Writes (store.selection (some module.own) excluded) (.ok text) items ∧
    ∀ item ∈ items, ∀ name ∈ item.bare ++ item.delayed, module.Offers name
  names : ∀ name,
    name ∈ (store.selection (some module.own) excluded).map (·.name) ↔ name ∈ module.own
  depends : ∀ d ∈ store.selection (some module.own) excluded, ∀ name ∈ store.dependsOn d,
    module.Offers name

structure Shares (store : Store) (common : List String) (module : Module) : Prop where
  names : module.schemaNames = common
  own : module.own = common
  imports : module.imports = []
  source : ∃ text, Declares store module [] text ∧
    module.source = joinParts [Client.schemaImports, text]

/-- The module of a group. What its client mentions is declared or imported too. -/
structure Serves (store : Store) (env : Env) (common : List String)
    (group : Key × List Operation) (module : Module) : Prop where
  operations : module.operations = group.2
  names : module.schemaNames = groupNames store group
  own : ∀ name, name ∈ module.own ↔ name ∈ groupNames store group ∧ name ∉ common
  imports : ∀ name, name ∈ module.imports ↔ name ∈ groupNames store group ∧ name ∈ common
  source : ∃ text client, Declares store module common text ∧
    Client.implementationCode env.name.display group.2 = .ok client ∧
    let interface := Client.interfaceCode env.name.display group.2
    let streaming := group.2.any fun op => (named op.streamSchema).isSome
    module.source = joinParts ([Client.imports streaming] ++ importLine env module.imports ++
      [text, client.text, interface.text]) ∧
    ∀ name ∈ client.names ++ interface.names, module.Offers name

variable {store : Store} {env : Env} {group : Key × List Operation} {module : Module}
  {groups : List (Key × List Operation)} {common : List String} {name : String} {s s' : Session}

theorem mem_inOrder {names : List String} : name ∈ inOrder store names ↔ name ∈ names := by
  simp [inOrder]

theorem offers_of_mem (member : name ∈ module.schemaNames) : module.Offers name := by
  by_cases listed : name ∈ module.imports
  · exact .inr listed
  · exact .inl (mem_own.mpr ⟨member, listed⟩)

/-- A module whose own names are what is selected for them, and hold what they depend on. -/
theorem declares_of_closed {excluded : List String} {text : String} {items : List Render.SchemaItem}
    (writes : store.Writes (store.selection (some module.own) excluded) (.ok text) items)
    (names : ∀ name,
      name ∈ (store.selection (some module.own) excluded).map (·.name) ↔ name ∈ module.own)
    (closed : ∀ d ∈ store.declarations, d.name ∈ module.own → ∀ name ∈ store.dependsOn d,
      module.Offers name) :
    Declares store module excluded text := by
  have depends : ∀ d ∈ store.selection (some module.own) excluded, ∀ name ∈ store.dependsOn d,
      module.Offers name := by
    intro d member
    exact closed d (Store.mem_of_mem_selection member)
      ((names d.name).mp (List.mem_map_of_mem member))
  refine ⟨⟨items, writes, ?_⟩, names, depends⟩
  intro item member name occurs
  obtain ⟨d, listed, cites⟩ := writes.mentions item member
  exact depends d listed name (cites name occurs)

/-- What the client of a group mentions the group needs. An error body is no name of an operation,
but its error depends on it. -/
theorem mem_groupNames_of_used (sound : store.Sound) {op : Operation} (member : op ∈ group.2)
    (fits : op.Fits store) (used : Client.Used op name) : name ∈ groupNames store group := by
  have ofPart : ∀ part ∈ op.parts, part ∈ groupNames store group := by
    intro part occurs
    have declared := fits.parts part occurs
    have nonempty : part ≠ "" := fun empty => sound.nonempty (empty ▸ declared)
    exact mem_groupNames_of_schemaNames sound member
      (Operation.mem_schemaNames.mpr ⟨occurs, nonempty⟩) declared
  rcases used with occurs | occurs
  · exact ofPart name occurs
  · obtain ⟨entry, listed, found⟩ := List.mem_filterMap.mp occurs
    obtain ⟨d, declared, named, wraps⟩ := fits.bodies (entry.2, name) (mem_of_lookup found)
    have needed : d.name ∈ groupNames store group := by
      rw [named]
      exact ofPart entry.2
        (Operation.mem_parts.mpr (.inr (.inr (.inr (.inl (List.mem_map_of_mem listed))))))
    exact groupNames_closed sound declared needed (Store.mem_dependsOn.mpr (.inr wraps))

section

variable {text : String} {items : List Render.SchemaItem}

theorem own_of_imports_nil (imports : module.imports = []) : module.own = module.schemaNames := by
  simp [own, imports]

theorem declares_common (sound : store.Sound) (names : module.schemaNames = commonNames store groups)
    (imports : module.imports = [])
    (writes : store.Writes (store.selection (some (commonNames store groups)) []) (.ok text) items) :
    Declares store module [] text := by
  have own : module.own = commonNames store groups := (own_of_imports_nil imports).trans names
  apply declares_of_closed (own.symm ▸ writes)
  · rw [own]
    exact fun name => names_selection_common sound
  · intro d listed member name depends
    rw [own] at member
    exact offers_of_mem (names ▸ commonNames_closed sound listed member depends)

theorem own_eq_ownNames (names : module.schemaNames = groupNames store group)
    (imports : ∀ name, name ∈ module.imports ↔ name ∈ groupNames store group ∧ name ∈ common) :
    module.own = ownNames store common group := by
  rw [own, ownNames, names]
  apply List.filter_congr
  intro name needed
  simp [imports, needed]

theorem declares_own (sound : store.Sound) (names : module.schemaNames = groupNames store group)
    (imports : ∀ name, name ∈ module.imports ↔
      name ∈ groupNames store group ∧ name ∈ commonNames store groups)
    (writes : store.Writes (store.selection (some (ownNames store (commonNames store groups) group))
      (commonNames store groups)) (.ok text) items) :
    Declares store module (commonNames store groups) text := by
  have own := own_eq_ownNames names imports
  apply declares_of_closed (own.symm ▸ writes)
  · rw [own]
    exact fun name => names_selection_own sound
  · intro d listed member name depends
    have needed : d.name ∈ groupNames store group := names ▸ (mem_own.mp member).1
    exact offers_of_mem (names ▸ groupNames_closed sound listed needed depends)

end

theorem commonOf_shares {shared : Option (Key × Module)} (sound : s.store.Sound)
    (done : commonOf env (commonNames s.store groups) s = .ok shared s') :
    s'.store = s.store ∧ (shared.isSome ↔ commonNames s.store groups ≠ []) ∧
      ∀ entry ∈ shared, env.commonModule.toKey = .ok entry.1 ∧
        Shares s.store (commonNames s.store groups) entry.2 := by
  unfold commonOf at done
  split at done
  · next empty =>
    cases done
    exact ⟨rfl, by simpa using empty, by simp⟩
  · next nonempty =>
    obtain ⟨_, t, reported, done⟩ := Build.bind_eq_ok.mp done
    cases reported
    obtain ⟨text, t, generated, done⟩ := Build.bind_eq_ok.mp done
    obtain ⟨kept, items, writes⟩ := Generator.generate_schema generated sound
    obtain ⟨key, t, lifted, returned⟩ := Build.bind_eq_ok.mp done
    obtain ⟨keyed, rfl⟩ := Build.lift_eq_ok.mp lifted
    cases returned
    refine ⟨kept, by simpa using nonempty, ?_⟩
    rintro entry same
    cases same
    exact ⟨keyed, rfl, own_of_imports_nil rfl, rfl, text, declares_common sound rfl rfl writes, rfl⟩

theorem tagOf_serves (sound : s.store.Sound) (fit : ∀ op ∈ group.2, op.Fits s.store)
    (done : tagOf env (commonNames s.store groups) group.1 group.2 (groupNames s.store group) s =
      .ok module s') :
    s'.store = s.store ∧ Serves s.store env (commonNames s.store groups) group module := by
  unfold tagOf at done
  obtain ⟨_, t, read, done⟩ := Build.bind_eq_ok.mp done
  cases read
  obtain ⟨text, t, generated, done⟩ := Build.bind_eq_ok.mp done
  obtain ⟨kept, items, writes⟩ := Generator.generate_schema generated sound
  obtain ⟨_, t, lifted, returned⟩ := Build.bind_eq_ok.mp done
  obtain ⟨implemented, rfl⟩ := Build.lift_eq_ok.mp lifted
  obtain ⟨client, coded, same⟩ := except_bind_eq_ok.mp implemented
  cases same
  cases returned
  have imports : ∀ name, name ∈ inOrder s.store ((groupNames s.store group).filter
      (commonNames s.store groups).contains) ↔
        name ∈ groupNames s.store group ∧ name ∈ commonNames s.store groups := by
    simp [mem_inOrder]
  refine ⟨kept, rfl, rfl, ?_, imports, text, client, ?_, coded, rfl, ?_⟩
  · intro name
    rw [own_eq_ownNames rfl imports, mem_ownNames]
  · exact declares_own sound rfl imports writes
  · intro name occurs
    refine offers_of_mem ?_
    rcases List.mem_append.mp occurs with occurs | occurs
    · obtain ⟨op, member, used⟩ := Client.implementation_names coded name occurs
      exact mem_groupNames_of_used sound member (fit op member) used
    · obtain ⟨op, member, part⟩ := Client.interface_names _ _ name occurs
      exact mem_groupNames_of_used sound member (fit op member) (.inl part)

/-- Every step of the fold adds the module that serves its group. -/
theorem addModules_serve {rest : List (Key × List Operation)} {modules result : List (Key × Module)}
    (sound : store.Sound) (fit : ∀ group ∈ rest, ∀ op ∈ group.2, op.Fits store)
    (current : s.store = store)
    (done : rest.foldlM (fun modules group => addModule env (commonNames store groups) modules
      (group, groupNames store group)) modules s = .ok result s') :
    s'.store = store ∧ ∃ tagged,
      List.Forall₂ (Serves store env (commonNames store groups)) rest tagged ∧
        result = putAll modules ((rest.map (·.1)).zip tagged) := by
  induction rest generalizing s modules with
  | nil =>
    cases done
    exact ⟨current, [], .nil, rfl⟩
  | cons group rest ih =>
    rw [List.foldlM_cons] at done
    obtain ⟨added, t, step, later⟩ := Build.bind_eq_ok.mp done
    obtain ⟨module, t', made, returned⟩ := Build.bind_eq_ok.mp step
    cases returned
    subst current
    obtain ⟨kept, serves⟩ := tagOf_serves sound (fit group List.mem_cons_self) made
    obtain ⟨reached, tagged, others, rfl⟩ :=
      ih (fun other member => fit other (List.mem_cons_of_mem _ member)) kept later
    exact ⟨reached, module :: tagged, .cons serves others, rfl⟩

/-- The shared module and the modules of the groups, before they are put together. -/
structure Partitioned (store : Store) (env : Env) (groups : List (Key × List Operation))
    (shared : Option (Key × Module)) (tagged : List Module) : Prop where
  nonempty : shared.isSome ↔ commonNames store groups ≠ []
  shares : ∀ entry ∈ shared, env.commonModule.toKey = .ok entry.1 ∧
    Shares store (commonNames store groups) entry.2
  serves : List.Forall₂ (Serves store env (commonNames store groups)) groups tagged

theorem partition_partitioned {operations : List Operation} {modules : List (Key × Module)}
    (done : partition env operations s = .ok modules s') (sound : s.store.Sound)
    (fit : ∀ op ∈ operations, op.Fits s.store) :
    ∃ groups shared tagged, groupByTag operations = .ok groups ∧
      Partitioned s'.store env groups shared tagged ∧
      modules = putAll shared.toList ((groups.map (·.1)).zip tagged) := by
  unfold partition at done
  obtain ⟨groups, t, lifted, rest⟩ := Build.bind_eq_ok.mp done
  obtain ⟨grouped, rfl⟩ := Build.lift_eq_ok.mp lifted
  -- marking names as shared changes neither the graph nor, therefore, what is shared
  let store := t.store.markShared (commonNames t.store groups)
  have evolves := Store.markShared_evolves sound (commonNames t.store groups)
  have needed : groupNames store = groupNames t.store := groupNames_markShared _ _
  have common : commonNames store groups = commonNames t.store groups := by
    rw [commonNames, needed, commonNames]
  obtain ⟨shared, u, made, added⟩ : ∃ shared u,
      commonOf env (commonNames t.store groups) { t with store } = .ok shared u ∧
        (groups.zip (groups.map (groupNames t.store))).foldlM
          (addModule env (commonNames t.store groups)) shared.toList u = .ok modules s' :=
    Build.bind_eq_ok.mp rest
  rw [← common] at made added
  obtain ⟨kept, nonempty, shares⟩ := commonOf_shares (s := { t with store }) evolves.sound made
  have entries : groups.zip (groups.map (groupNames t.store)) =
      groups.map fun group => (group, groupNames store group) := by
    rw [needed]
    simpa using List.zip_map' (f := id) (g := groupNames t.store) (l := groups)
  rw [entries, List.foldlM_map] at added
  have listed := (groupByTag_groups grouped).listed
  obtain ⟨reached, tagged, serves, rfl⟩ := addModules_serve evolves.sound
    (fun group member op occurs => (fit op (listed group member op occurs)).evolve evolves) kept added
  exact ⟨groups, shared, tagged, grouped, reached ▸ ⟨nonempty, shares, serves⟩, rfl⟩

/-- A name is declared in the modules of the groups that need it, unless it is shared. -/
theorem countP_own {tagged : List Module}
    (serves : List.Forall₂ (Serves store env common) groups tagged) :
    tagged.countP (·.own.contains name) =
      groups.countP fun group => (groupNames store group).contains name && !common.contains name := by
  induction serves with
  | nil => rfl
  | cons first _ ih =>
    have same : ∀ {group module}, Serves store env common group module → module.own.contains name =
        ((groupNames store group).contains name && !common.contains name) := by
      intro group module serves
      rw [Bool.eq_iff_iff]
      simp [serves.own]
    rw [List.countP_cons, List.countP_cons, ih, same first]

namespace Partitioned

variable {shared : Option (Key × Module)} {tagged : List Module}

theorem countP_shared (parts : Partitioned store env groups shared tagged) :
    shared.toList.countP (·.2.own.contains name) =
      if name ∈ commonNames store groups then 1 else 0 := by
  cases shared with
  | none =>
    have empty : commonNames store groups = [] := by simpa using parts.nonempty
    simp [empty]
  | some entry =>
    obtain ⟨_, shares⟩ := parts.shares entry rfl
    simp [shares.own, List.countP_cons]

theorem not_own_of_common (parts : Partitioned store env groups shared tagged)
    (member : name ∈ commonNames store groups) (listed : module ∈ tagged) : name ∉ module.own := by
  have absent : tagged.countP (·.own.contains name) = 0 := by
    rw [countP_own parts.serves]
    simp [member]
  simpa using List.countP_eq_zero.mp absent module listed

theorem keys_eq (parts : Partitioned store env groups shared tagged) :
    ((groups.map (·.1)).zip tagged).map (·.1) = groups.map (·.1) :=
  List.map_fst_zip (by simp [parts.serves.length_eq])

theorem modules_eq (parts : Partitioned store env groups shared tagged) :
    ((groups.map (·.1)).zip tagged).map (·.2) = tagged :=
  List.map_snd_zip (by simp [parts.serves.length_eq])

theorem modules_apart (parts : Partitioned store env groups shared tagged)
    (apart : Apart (groups.map (·.1)))
    (differs : ∀ entry ∈ shared, ∀ group ∈ groups, entry.1.same group.1 = false) :
    Apart ((shared.toList ++ (groups.map (·.1)).zip tagged).map (·.1)) := by
  rw [List.map_append, parts.keys_eq]
  refine List.pairwise_append.mpr ⟨?_, apart, ?_⟩
  · cases shared <;> simp
  · intro first firstListed last lastListed
    obtain ⟨entry, member, rfl⟩ := List.mem_map.mp firstListed
    obtain ⟨other, otherListed, rfl⟩ := List.mem_map.mp lastListed
    exact differs entry (Option.mem_toList.mp member) other otherListed

/-- Where no group has the key of the shared module, a name is declared once. -/
theorem countP_modules (parts : Partitioned store env groups shared tagged)
    (apart : Apart (groups.map (·.1)))
    (differs : ∀ entry ∈ shared, ∀ group ∈ groups, entry.1.same group.1 = false)
    (listed : group ∈ groups) (needed : name ∈ groupNames store group) :
    (putAll shared.toList ((groups.map (·.1)).zip tagged)).countP (·.2.own.contains name) = 1 := by
  have tags : ((groups.map (·.1)).zip tagged).countP (·.2.own.contains name) =
      tagged.countP (·.own.contains name) := by
    conv_rhs => rw [← parts.modules_eq, List.countP_map]
    rfl
  rw [putAll_apart (parts.modules_apart apart differs), List.countP_append, parts.countP_shared,
    tags, countP_own parts.serves]
  by_cases member : name ∈ commonNames store groups
  · simp [member]
  · have few : ¬ 2 ≤ groups.countP fun group => (groupNames store group).contains name :=
      fun several => member (mem_commonNames.mpr several)
    have needs : 0 < groups.countP fun group => (groupNames store group).contains name :=
      List.countP_pos_iff.mpr ⟨group, listed, List.contains_iff_mem.mpr needed⟩
    simp only [member, if_false, List.contains_eq_mem, decide_false, Bool.not_false, Bool.and_true]
    simp only [List.contains_eq_mem] at few needs
    omega

/-- The shared module stays only if its key is its own: no module of a group is equal to it, since
none declares what is shared. -/
theorem differs_of_kept (parts : Partitioned store env groups shared tagged) {entry : Key × Module}
    (member : entry ∈ shared)
    (kept : entry ∈ putAll shared.toList ((groups.map (·.1)).zip tagged)) :
    ∀ group ∈ groups, entry.1.same group.1 = false := by
  intro group listed
  rcases mem_putAll kept with ⟨_, differs⟩ | replaced
  · have key : group.1 ∈ ((groups.map (·.1)).zip tagged).map (·.1) := by
      rw [parts.keys_eq]
      exact List.mem_map_of_mem listed
    obtain ⟨placed, placedListed, same⟩ := List.mem_map.mp key
    exact same ▸ differs placed placedListed
  · rw [parts.modules_eq] at replaced
    obtain ⟨name, common⟩ := List.exists_mem_of_ne_nil _
      (parts.nonempty.mp (by simp [Option.mem_def.mp member]))
    have declares : name ∈ entry.2.own := (parts.shares entry member).2.own ▸ common
    exact absurd declares (parts.not_own_of_common common replaced)

/-- If a group has the key of the shared module, its module takes that place, and then no module
declares what is shared. -/
theorem declared_once_iff (parts : Partitioned store env groups shared tagged)
    (apart : Apart (groups.map (·.1))) :
    (∀ group ∈ groups, ∀ name ∈ groupNames store group,
      (putAll shared.toList ((groups.map (·.1)).zip tagged)).countP (·.2.own.contains name) = 1) ↔
        ∀ entry ∈ shared, ∀ group ∈ groups, entry.1.same group.1 = false := by
  constructor
  · intro once entry member group listed
    obtain ⟨name, common⟩ := List.exists_mem_of_ne_nil _
      (parts.nonempty.mp (by simp [Option.mem_def.mp member]))
    obtain ⟨other, otherListed, needed⟩ := exists_group_of_several (mem_commonNames.mp common)
    have one := once other otherListed name needed
    -- only the shared module declares a shared name, and it is kept only if its key is its own
    obtain ⟨declaring, declares, owned⟩ := List.countP_pos_iff.mp (one ▸ Nat.one_pos)
    rw [List.contains_iff_mem] at owned
    rcases mem_putAll declares with ⟨kept, _⟩ | added
    · cases (Option.mem_toList.mp kept).symm.trans member
      exact parts.differs_of_kept member declares group listed
    · rw [parts.modules_eq] at added
      exact absurd owned (parts.not_own_of_common common added)
  · intro differs group listed name needed
    exact parts.countP_modules apart differs listed needed

end Partitioned

end Module

namespace Document

variable {s : Session}

theorem convertChecked_keeps (version : String) (members : Members) :
    Build.Ends (· = s.store) (fun _ _ => True) (Swagger.convertChecked version members) s := by
  apply Build.Ends.report
  split
  · exact .pure rfl trivial
  · exact .throw rfl

theorem convert_keeps (document : Json) :
    Build.Ends (· = s.store) (fun _ _ => True) (Swagger.convert document) s := by
  unfold Swagger.convert
  refine Build.Ends.lift_bind (P := (· = s.store)) rfl ?_
  intro members _
  dsimp only
  split
  · exact rfl
  · split
    · exact convertChecked_keeps _ _
    · exact convertChecked_keeps _ _
    · exact rfl

theorem prepare_keeps (document : Json) :
    Build.Ends (· = s.store) (fun _ _ => True) (prepare document) s := by
  unfold prepare
  split
  · split
    · exact convert_keeps _
    · split
      · exact .throw rfl
      · dsimp only
        split
        · exact .pure rfl trivial
        · exact .throw rfl
  · exact .throw rfl

theorem generate_partitioned {config : Config} {document name ext : Json} {generated : Generated}
    {final : Session} (done : generate config document name ext {} = .ok generated final) :
    ∃ groups shared tagged, Module.groupByTag generated.operations = .ok groups ∧
      Module.Partitioned final.store
        ⟨name.orElse config.name, ext.nonNull?.getD config.ext, config.commonModule⟩
        groups shared tagged ∧
      generated.modules = Module.putAll shared.toList ((groups.map (·.1)).zip tagged) := by
  unfold generate at done
  obtain ⟨prepared, t, ready, done⟩ := Build.bind_eq_ok.mp done
  have fresh := ((prepare_keeps document).of_ok ready).1
  obtain ⟨operations, t', walked, done⟩ := Build.bind_eq_ok.mp done
  have sound : t.store.Sound := fresh ▸ Store.sound_empty
  obtain ⟨evolves, fit⟩ := (Walk.walk_evolves _ sound).of_ok walked
  obtain ⟨_, u, read, done⟩ := Build.bind_eq_ok.mp done
  cases read
  obtain ⟨_, u, reported, done⟩ := Build.bind_eq_ok.mp done
  cases reported
  obtain ⟨modules, u, parted, returned⟩ := Build.bind_eq_ok.mp done
  cases returned
  exact Module.partition_partitioned parted evolves.sound fit

/-- The modules of a description. What two groups or more need goes to the shared module, the rest
to the module of its group, and each module stands on its own names and its imports. So every name
that is needed is declared exactly once, unless a group has the key of the shared module. -/
theorem generate_declares_once {config : Config} {document name ext : Json} {generated : Generated}
    {final : Session} (done : generate config document name ext {} = .ok generated final) :
    ∃ groups shared tagged, Module.groupByTag generated.operations = .ok groups ∧
      let store := final.store
      let common := Module.commonNames store groups
      (∀ n, n ∈ common ↔
        2 ≤ groups.countP fun group => (Module.groupNames store group).contains n) ∧
      (groups.length < 2 → common = []) ∧
      Module.Partitioned store
        ⟨name.orElse config.name, ext.nonNull?.getD config.ext, config.commonModule⟩
        groups shared tagged ∧
      generated.modules = Module.putAll shared.toList ((groups.map (·.1)).zip tagged) ∧
      ((∀ group ∈ groups, ∀ n ∈ Module.groupNames store group,
        generated.modules.countP (·.2.own.contains n) = 1) ↔
          ∀ entry ∈ shared, ∀ group ∈ groups, entry.1.same group.1 = false) := by
  obtain ⟨groups, shared, tagged, grouped, parts, modules⟩ := generate_partitioned done
  refine ⟨groups, shared, tagged, grouped, fun n => Module.mem_commonNames,
    Module.commonNames_single, parts, modules, ?_⟩
  rw [modules]
  exact parts.declared_once_iff (Module.groupByTag_groups grouped).apart

/-- Pets and their owners under two tags. Both need the owner; a missing pet is a problem. -/
def petsAndOwners (pets owners : String) : Json :=
  let schema (name : String) : Json := .obj [("$ref", .str ("#/components/schemas/" ++ name))]
  let answer (name : String) : Json :=
    .obj [("content", .obj [("application/json", .obj [("schema", schema name)])])]
  let get (tag : String) (answers : Members) : Json :=
    .obj [("get", .obj [("tags", .arr [.str tag]), ("responses", .obj answers)])]
  let object (field : String) (type : Json) : Json :=
    .obj [("type", .str "object"), ("properties", .obj [(field, type)])]
  let text : Json := .obj [("type", .str "string")]
  .obj [("openapi", .str "3.0.0"),
    ("paths", .obj [("/pets", get pets [("200", answer "Pet"), ("404", answer "Problem")]),
      ("/owners", get owners [("200", answer "Owner")])]),
    ("components", .obj [("schemas", .obj [("Pet", object "owner" (schema "Owner")),
      ("Owner", object "name" text), ("Problem", object "reason" text)])])]

theorem generate_declares_once_owner : ∃ generated final,
    generate {} (petsAndOwners "pets" "owners") .null .null {} = .ok generated final ∧
      generated.modules.map (fun m => (m.2.own, m.2.imports)) =
        [(["Owner"], []), (["ProblemBody", "Problem", "Pet"], ["Owner"]), ([], ["Owner"])] ∧
      ∃ groups shared tagged, Module.groupByTag generated.operations = .ok groups ∧
        Module.Partitioned final.store ⟨.str "Client", .str ".js", .str "_common"⟩
          groups shared tagged ∧
        generated.modules = Module.putAll shared.toList ((groups.map (·.1)).zip tagged) ∧
        ((∀ group ∈ groups, ∀ n ∈ Module.groupNames final.store group,
          generated.modules.countP (·.2.own.contains n) = 1) ↔
            ∀ entry ∈ shared, ∀ group ∈ groups, entry.1.same group.1 = false) := by
  have passed : Build.succeeds (generate {} (petsAndOwners "pets" "owners") .null .null) {}
      fun generated _ =>
      generated.modules.map (fun m => (m.2.own, m.2.imports)) =
        [(["Owner"], []), (["ProblemBody", "Problem", "Pet"], ["Owner"]), ([], ["Owner"])] := by
    decide +kernel
  obtain ⟨generated, final, done, listed⟩ := Build.exists_of_succeeds passed
  obtain ⟨groups, shared, tagged, grouped, _, _, parts, modules, once⟩ := generate_declares_once done
  exact ⟨generated, final, done, of_decide_eq_true listed, groups, shared, tagged, grouped, parts,
    modules, once⟩

/-- With the tag of the shared module in use, the owner is needed but declared nowhere. -/
theorem generate_common_tag_undeclared : ∃ generated final groups,
    generate {} (petsAndOwners "pets" "_common") .null .null {} = .ok generated final ∧
      Module.groupByTag generated.operations = .ok groups ∧
      (∃ group ∈ groups, "Owner" ∈ Module.groupNames final.store group) ∧
      generated.modules.countP (·.2.own.contains "Owner") = 0 := by
  have passed : Build.succeeds (generate {} (petsAndOwners "pets" "_common") .null .null) {}
      fun generated final =>
      match Module.groupByTag generated.operations with
      | .ok groups =>
        (∃ group ∈ groups, "Owner" ∈ Module.groupNames final.store group) ∧
          generated.modules.countP (·.2.own.contains "Owner") = 0
      | .error _ => false := by
    decide +kernel
  obtain ⟨generated, final, done, tested⟩ := Build.exists_of_succeeds passed
  split at tested
  · next groups grouped => exact ⟨generated, final, groups, done, grouped, of_decide_eq_true tested⟩
  · cases tested

end Document

end TypedClient
