import TypedClient.Proofs.Store.Emission

/-! Additions are conservative. A store that has grown answers for the names it had before as it
did before: their graph, their closure, their order and their text do not see what was added. -/
namespace TypedClient

namespace NameGraph

variable {graph grown : NameGraph} {excluded closed stack names : List String} {known : String → Prop}

/-- Two graphs agree on some names, and those names depend on each other only. -/
structure Agrees (known : String → Prop) (graph grown : NameGraph) : Prop where
  find? : ∀ name, known name → grown.find? name = graph.find? name
  whole : ∀ name, known name → ∀ other, graph.Edge name other → known other

namespace Agrees

theorem closeFrom (agrees : Agrees known graph grown) (inside : ∀ name ∈ stack, known name) :
    grown.closeFrom excluded closed stack = graph.closeFrom excluded closed stack := by
  fun_induction NameGraph.closeFrom graph excluded closed stack with
  | case1 closed => rw [NameGraph.closeFrom]
  | case2 closed name stack seen ih =>
    rw [NameGraph.closeFrom, dif_pos seen]
    exact ih fun other member => inside other (List.mem_cons_of_mem _ member)
  | case3 closed name stack fresh unknown ih =>
    have absent : grown.find? name = none := by
      rw [agrees.find? name (inside name List.mem_cons_self), unknown]
    rw [NameGraph.closeFrom, dif_neg fresh]
    split
    · exact ih fun other member => inside other (List.mem_cons_of_mem _ member)
    · rename_i node found
      simp [absent] at found
  | case4 closed name stack fresh node found ih =>
    have same : grown.find? name = some node := by
      rw [agrees.find? name (inside name List.mem_cons_self), found]
    rw [NameGraph.closeFrom, dif_neg fresh]
    split
    · rename_i absent
      simp [same] at absent
    · rename_i other otherFound
      obtain rfl := Option.some.inj (same.symm.trans otherFound)
      apply ih
      intro next member
      rcases List.mem_append.mp member with dep | waiting
      · exact agrees.whole name (inside name List.mem_cons_self) next ⟨node, found, dep⟩
      · exact inside next (List.mem_cons_of_mem _ waiting)

theorem closure (agrees : Agrees known graph grown) (inside : ∀ name ∈ names, known name) :
    grown.closure names excluded = graph.closure names excluded :=
  agrees.closeFrom inside

theorem known_of_mem_closure (agrees : Agrees known graph grown)
    (inside : ∀ name ∈ names, known name) {name : String}
    (member : name ∈ graph.closure names excluded) : known name := by
  rw [mem_closure] at member
  induction member with
  | root member _ => exact inside _ member
  | step _ edge _ ih => exact agrees.whole _ ih _ edge

theorem topologicalOrder (agrees : Agrees known graph grown) (inside : ∀ name ∈ names, known name) :
    grown.topologicalOrder names = graph.topologicalOrder names := by
  have same : grown.select names = graph.select names := by
    unfold select deps place
    congr 1
    apply List.map_congr_left
    intro name member
    rw [agrees.find? name (inside name (List.mem_eraseDups.mp member))]
  rw [NameGraph.topologicalOrder, same]
  rfl

end Agrees

end NameGraph

namespace Store

variable {before after : Store} {names excluded : List String} {name : String}

namespace Grows

theorem aliases (grows : Grows before after) : after.aliases = before.aliases := by
  obtain ⟨added, declarations, plain⟩ := grows.declared
  unfold Store.aliases
  rw [declarations, List.filterMap_append, List.append_right_eq_self]
  apply List.filterMap_eq_nil_iff.mpr
  intro d member
  have kind := plain d member
  split
  · contradiction
  · rfl

theorem dependsOn (grows : Grows before after) (d : Declaration) :
    after.dependsOn d = before.dependsOn d := by
  unfold Store.dependsOn
  rw [grows.aliases]

theorem nodes_graph (grows : Grows before after) (sound : before.Sound) :
    ∃ added, after.graph.nodes = before.graph.nodes ++ added := by
  obtain ⟨added, declarations, _⟩ := grows.declared
  have node : after.node = before.node := by
    funext d
    simp [Store.node, grows.dependsOn]
  refine ⟨added.map before.node, ?_⟩
  rw [Store.nodes_graph grows.sound.distinct, Store.nodes_graph sound.distinct, declarations,
    List.map_append, node]

/-- What the earlier names depend on has been declared with them, so what was added later does not
come between them. -/
theorem agrees (grows : Grows before after) (sound : before.Sound) :
    NameGraph.Agrees (· ∈ before.names) before.graph after.graph := by
  obtain ⟨added, nodes⟩ := grows.nodes_graph sound
  constructor
  · intro name declared
    rw [← names_graph sound.distinct] at declared
    have found : (before.graph.find? name).isSome = true := by
      rw [Option.isSome_iff_ne_none]
      exact fun unknown => NameGraph.find?_eq_none.mp unknown declared
    unfold NameGraph.find? at found ⊢
    rw [nodes, List.find?_append, Option.or_of_isSome found]
  · intro name _ other edge
    obtain ⟨d, member, _, depends⟩ := (edge_graph sound).mp edge
    exact dependsOn_subset sound member depends

theorem selection (grows : Grows before after) (sound : before.Sound)
    (declared : names ⊆ before.names) (excluded : List String) :
    after.selection (some names) excluded = before.selection (some names) excluded := by
  have agrees := grows.agrees sound
  have known : ∀ name ∈ before.graph.closure names excluded, name ∈ before.names :=
    fun name => agrees.known_of_mem_closure declared
  unfold Store.selection
  simp only [Option.getD_some]
  rw [agrees.closure declared, agrees.topologicalOrder known]
  apply List.filterMap_congr
  intro name member
  exact grows.find?_eq (known name (NameGraph.mem_topologicalOrder.mp member))

end Grows

end Store

namespace History

/-- One more addition, with success or not, leaves all earlier declarations in their places as
they are. For names that were declared before it, whatever is excluded, the same declarations are
written in the same order, with the same result in either kind: a text, unless a literal has none. -/
theorem run_add_conservative (brandIds : Bool) (calls : List Call) (name : String)
    (fragment document : Json) (preferStruct : Bool) (names excluded : List String)
    (declared : names ⊆ (run brandIds calls).store.names) (kind : OutputKind) :
    let before := run brandIds calls
    let after := run brandIds (calls ++ [.add name fragment document preferStruct])
    before.store.declarations <+: after.store.declarations ∧
      after.store.selection (some names) excluded = before.store.selection (some names) excluded ∧
      ∃ result s s',
        Generator.generate (.str kind.name) (some names) excluded before.session =
          Build.lift result s ∧
        Generator.generate (.str kind.name) (some names) excluded after.session =
          Build.lift result s' ∧
        (Render.Legible kind (before.store.selection (some names) excluded) →
          ∃ text, result = .ok text) := by
  intro before after
  have sound : before.store.Sound := (run_sound brandIds calls).store
  have last : after = before.call brandIds (.add name fragment document preferStruct) := by
    simp [after, before, run, List.foldl_append]
  have grows : Store.Grows before.store after.store := by
    rw [last]
    exact (store_add brandIds name fragment document preferStruct sound).1
  have selection := grows.selection sound declared excluded
  obtain ⟨added, declarations, _⟩ := grows.declared
  have rendered : Store.renderAs kind after.store.aliases
        (after.store.selection (some names) excluded) =
      Store.renderAs kind before.store.aliases (before.store.selection (some names) excluded) := by
    rw [grows.aliases, selection]
  obtain ⟨s, _, step⟩ := Generator.generate_eq kind (some names) excluded before.session
  obtain ⟨s', _, step'⟩ := Generator.generate_eq kind (some names) excluded after.session
  exact ⟨⟨added, declarations.symm⟩, selection, _, s, s', step,
    step'.trans (congrArg (Build.lift · s') rendered),
    (Store.exists_renderAs_selection sound kind (some names) excluded).mpr⟩

/-- A list of links, and an addition that meets its reference again, declares a brand and then
fails at a key that is no text. -/
def linksThenFailure : List Call × Call :=
  let link : Json := .obj [("$ref", .str "#/$defs/Link")]
  let document : Json := .obj [("$defs", .obj [("Link", .obj [("type", .str "object"),
    ("properties", .obj [("next", link)])])])]
  let object (properties : Members) : Json :=
    .obj [("type", .str "object"), ("properties", .obj properties)]
  ([.add "Chain" (object [("first", link)]) document true, .markAsError "Chain"],
    .add "Broken" (object [("cause", link), ("ownerId", .obj [("type", .str "string")]),
      (.int 404, link)]) document false)

theorem run_add_conservative_links :
    let (calls, failing) := linksThenFailure
    let before := run true calls
    let after := run true (calls ++ [failing])
    before.store.names = ["Chain", "Link", "ChainBody"] ∧
      after.store.names = ["Chain", "Link", "ChainBody", "Broken", "OwnerId"] ∧
      before.store.declarations <+: after.store.declarations ∧
      after.store.selection (some ["Chain"]) ["Link"] =
        before.store.selection (some ["Chain"]) ["Link"] ∧
      ∃ text s s',
        Generator.generate (.str "Schema") (some ["Chain"]) ["Link"] before.session = .ok text s ∧
          Generator.generate (.str "Schema") (some ["Chain"]) ["Link"] after.session =
            .ok text s' := by
  have names : (run true linksThenFailure.1).store.names = ["Chain", "Link", "ChainBody"] := by
    decide +kernel
  have generated : Build.succeeds (Generator.generate (.str "Schema") (some ["Chain"]) ["Link"])
      (run true linksThenFailure.1).session (fun _ _ => true) = true := by decide +kernel
  obtain ⟨text, _, done, _⟩ := Build.exists_of_succeeds generated
  obtain ⟨kept, selection, result, s, s', step, step', _⟩ :=
    run_add_conservative true linksThenFailure.1 _ _ _ _ ["Chain"] ["Link"] (by simp [names]) .schema
  obtain ⟨rfl, rfl⟩ := Build.lift_eq_ok.mp (step.symm.trans done)
  exact ⟨names, by decide +kernel, kept, selection, text, _, s', done, step'⟩

end History

end TypedClient
