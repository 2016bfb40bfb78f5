import TypedClient.Proofs.NameGraph.Order
import TypedClient.Proofs.Store.Errors

/-! What is written for some names. In a sound store the dependencies of a declaration are
declared, and a selection holds all that its declarations depend on but for what is excluded. -/
namespace TypedClient.Store

open NameGraph

variable {store : Store} {declaration : Declaration} {name other : String}
  {names : Option (List String)} {excluded : List String}

def target (store : Store) (name : String) : String :=
  (store.aliases.lookup name).getD name

def node (store : Store) (declaration : Declaration) : NameNode :=
  ⟨declaration.name, declaration.order, store.dependsOn declaration⟩

theorem lookup_aliases (sound : store.Sound) :
    store.aliases.lookup name = some other ↔
      ∃ d ∈ store.declarations, d.name = name ∧ d.body = some other := by
  have member : ∀ entry : String × String, entry ∈ store.aliases ↔
      ∃ d ∈ store.declarations, d.name = entry.1 ∧ d.body = some entry.2 := by
    rintro ⟨tagged, body⟩
    simp only [aliases, List.mem_filterMap]
    constructor
    · rintro ⟨d, listed, entry⟩
      split at entry
      · rename_i kind wraps
        cases entry
        exact ⟨d, listed, rfl, wraps⟩
      · cases entry
    · rintro ⟨d, listed, rfl, wraps⟩
      have kind := (sound.tagged d listed).mpr (by simp [wraps])
      exact ⟨d, listed, by simp [kind, wraps]⟩
  constructor
  · intro found
    exact (member (name, other)).mp (mem_of_lookup found)
  · rintro ⟨d, listed, rfl, wraps⟩
    have entry := (member (d.name, other)).mpr ⟨d, listed, rfl, wraps⟩
    cases found : store.aliases.lookup d.name with
    | none =>
      have missing := List.lookup_eq_none_iff.mp found _ entry
      simp at missing
    | some body =>
      obtain ⟨e, eListed, same, eWraps⟩ := (member (d.name, body)).mp (mem_of_lookup found)
      obtain rfl := List.inj_on_of_nodup_map sound.distinct eListed listed same
      exact eWraps.symm.trans wraps

/-- A reference leads to a body, or it stays. -/
theorem target_cases (sound : store.Sound) (name : String) :
    (∃ d ∈ store.declarations, d.name = name ∧ d.body = some (store.target name)) ∨
      (store.target name = name ∧ ∀ d ∈ store.declarations, d.name = name → d.body = none) := by
  cases found : store.aliases.lookup name with
  | some body =>
    obtain ⟨d, listed, named, wraps⟩ := (lookup_aliases sound).mp found
    exact .inl ⟨d, listed, named, by simpa [target, found] using wraps⟩
  | none =>
    refine .inr ⟨by simp [target, found], ?_⟩
    intro d listed named
    cases wraps : d.body with
    | none => rfl
    | some body =>
      have := (lookup_aliases sound).mpr ⟨d, listed, named, wraps⟩
      simp [found] at this

theorem target_mem (sound : store.Sound) (declared : name ∈ store.names) :
    store.target name ∈ store.names := by
  rcases target_cases sound name with ⟨d, listed, _, wraps⟩ | ⟨same, _⟩
  · exact sound.bodies d listed _ wraps
  · rwa [same]

theorem mem_dependsOn : other ∈ store.dependsOn declaration ↔
    (∃ name ∈ declaration.refs, store.target name = other) ∨ declaration.body = some other := by
  simp only [dependsOn, Schema.mem_distinct, List.mem_append, List.mem_map, Option.mem_toList,
    target]

theorem refs_subset (sound : store.Sound) (member : declaration ∈ store.declarations) :
    declaration.refs ⊆ store.names := by
  unfold Declaration.refs
  cases typed : declaration.type with
  | none => simp
  | some type => exact (sound.fits declaration member type typed).2

theorem dependsOn_subset (sound : store.Sound) (member : declaration ∈ store.declarations) :
    store.dependsOn declaration ⊆ store.names := by
  intro other depends
  rcases mem_dependsOn.mp depends with ⟨name, occurs, rfl⟩ | wraps
  · exact target_mem sound (refs_subset sound member occurs)
  · exact sound.bodies declaration member other wraps

/-- Under distinct names the graph has one node for each declaration, in the same order. -/
theorem nodes_graph (distinct : store.names.Nodup) :
    store.graph.nodes = store.declarations.map store.node := by
  have steps : ∀ (rest : List Declaration) (graph : NameGraph),
      (graph.names ++ rest.map (·.name)).Nodup →
        (rest.foldl (fun g d => g.add d.name (store.dependsOn d) (some d.order)) graph).nodes =
          graph.nodes ++ rest.map store.node := by
    intro rest
    induction rest with
    | nil => simp
    | cons d rest ih =>
      intro graph distinct
      have fresh : graph.contains d.name = false := by
        have := List.disjoint_of_nodup_append distinct
        simpa [NameGraph.contains, NameGraph.names] using
          fun node member same => this (List.mem_map.mpr ⟨node, member, same⟩) (by simp)
      have added : graph.add d.name (store.dependsOn d) (some d.order) =
          ⟨graph.nodes ++ [store.node d]⟩ := by
        simp [NameGraph.add, fresh, node]
      rw [List.foldl_cons, added, ih]
      · simp
      · simpa [NameGraph.names, node] using distinct
  simpa [graph] using steps store.declarations {} (by simpa [NameGraph.names, Store.names] using distinct)

theorem names_graph (distinct : store.names.Nodup) : store.graph.names = store.names := by
  simp [NameGraph.names, nodes_graph distinct, node, Store.names]

theorem edge_graph (sound : store.Sound) : store.graph.Edge name other ↔
    ∃ d ∈ store.declarations, d.name = name ∧ other ∈ store.dependsOn d := by
  have nodes := nodes_graph sound.distinct
  constructor
  · intro edge
    obtain ⟨node, member, rfl, dep⟩ := edge.exists_node
    rw [nodes] at member
    obtain ⟨d, listed, rfl⟩ := List.mem_map.mp member
    exact ⟨d, listed, rfl, dep⟩
  · rintro ⟨d, listed, rfl, dep⟩
    have member : store.node d ∈ store.graph.nodes := by
      rw [nodes]
      exact List.mem_map_of_mem listed
    exact edge_of_mem ((names_graph sound.distinct).symm ▸ sound.distinct) member rfl dep

theorem names_filterMap_find? {listed : List String} (known : ∀ name ∈ listed, name ∈ store.names) :
    (listed.filterMap store.find?).map (·.name) = listed := by
  induction listed with
  | nil => rfl
  | cons name rest ih =>
    obtain ⟨d, found⟩ := Option.isSome_iff_exists.mp (find?_isSome.mpr (known name (by simp)))
    rw [List.filterMap_cons_some found, List.map_cons, (mem_of_find? found).2,
      ih fun other member => known other (List.mem_cons_of_mem _ member)]

theorem names_selection (sound : store.Sound) (names : Option (List String))
    (excluded : List String) :
    (store.selection names excluded).map (·.name) =
      store.graph.topologicalOrder (store.closure (names.getD store.names) excluded) := by
  apply names_filterMap_find?
  intro name member
  have reaches := mem_closure.mp (mem_topologicalOrder.mp member)
  exact names_graph sound.distinct ▸ reaches.isOpen.1

theorem mem_names_selection (sound : store.Sound) :
    name ∈ (store.selection names excluded).map (·.name) ↔
      Reaches store.graph excluded (names.getD store.names) name := by
  rw [names_selection sound, mem_topologicalOrder, closure, mem_closure]

theorem mem_of_mem_selection (member : declaration ∈ store.selection names excluded) :
    declaration ∈ store.declarations := by
  obtain ⟨name, _, found⟩ := List.mem_filterMap.mp member
  exact (mem_of_find? found).1

theorem selection_nodup (sound : store.Sound) :
    ((store.selection names excluded).map (·.name)).Nodup := by
  rw [names_selection sound]
  exact topologicalOrder_nodup

/-- What a selected declaration depends on is selected too, or excluded. -/
theorem selection_closed (sound : store.Sound)
    (member : declaration ∈ store.selection names excluded)
    (depends : other ∈ store.dependsOn declaration) :
    other ∈ (store.selection names excluded).map (·.name) ∨ other ∈ excluded := by
  by_cases out : other ∈ excluded
  · exact .inr out
  · left
    have listed := mem_of_mem_selection member
    have reaches := (mem_names_selection sound).mp (List.mem_map_of_mem member)
    have declared : other ∈ store.graph.names := by
      rw [names_graph sound.distinct]
      exact dependsOn_subset sound listed depends
    exact (mem_names_selection sound).mpr
      (.step reaches ((edge_graph sound).mpr ⟨declaration, listed, rfl, depends⟩) ⟨declared, out⟩)

/-- A declaration that is written before one that it depends on lies on a cycle. -/
theorem selection_before {earlier later : List Declaration} (sound : store.Sound)
    (split : store.selection names excluded = earlier ++ declaration :: later)
    (depends : other ∈ store.dependsOn declaration) (after : other ∈ later.map (·.name)) :
    Relation.TransGen store.graph.Edge declaration.name declaration.name := by
  have selected : declaration ∈ store.selection names excluded := by simp [split]
  have listed := mem_of_mem_selection selected
  have order := names_selection sound names excluded
  rw [split, List.map_append, List.map_cons] at order
  exact topologicalOrder_before order.symm
    ((edge_graph sound).mpr ⟨declaration, listed, rfl, depends⟩) after

end TypedClient.Store
