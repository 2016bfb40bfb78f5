import TypedClient.Proofs.NameGraph.Closure

/-! Graphs that are made by additions. A graph knows just the names that have been added, each with
the place of its first addition and the dependencies of all of them. -/
namespace TypedClient.NameGraph

/-- One addition to a graph: a name, what it depends on and, if it is given, its place. -/
structure Addition where
  name : String
  deps : List String
  order : Option Int := none

def ofAdditions (additions : List Addition) : NameGraph :=
  additions.foldl (fun graph a => graph.add a.name a.deps a.order) {}

variable {additions : List Addition} {name dep : String}

/-- The place of a name is given with its first addition; without one it is the number of names
before it, and for a name that is not there it is zero. -/
def placeIn (additions : List Addition) (name : String) : Int :=
  match additions.find? (·.name == name) with
  | some first =>
    first.order.getD ((additions.takeWhile (·.name != name)).map (·.name)).toFinset.card
  | none => 0

def depsIn (additions : List Addition) (name : String) : List String :=
  (additions.filter (·.name == name)).flatMap (·.deps)

theorem isSome_find? (graph : NameGraph) (name : String) :
    (graph.find? name).isSome = graph.contains name :=
  List.isSome_find?

theorem find?_add (graph : NameGraph) (name : String) (deps : List String) (order : Option Int)
    (other : String) : (graph.add name deps order).find? other =
      if other = name then some (match graph.find? name with
        | some node => { node with deps := node.deps ++ deps }
        | none => ⟨name, order.getD graph.nodes.length, deps⟩)
      else graph.find? other := by
  unfold add
  cases found : graph.find? name with
  | some node =>
    rw [← isSome_find?, found, Option.isSome_some, if_pos rfl]
    have named (n : NameNode) :
        (if n.name == name then { n with deps := n.deps ++ deps } else n).name = n.name := by
      split <;> rfl
    unfold find? at found ⊢
    simp only [List.find?_map, Function.comp_def, named]
    by_cases own : other = name
    · rw [own, found, if_pos rfl, Option.map_some, name_of_find? found]
      simp
    · rw [if_neg own]
      cases held : graph.nodes.find? (·.name == other) with
      | none => rfl
      | some node => simp [name_of_find? held, own]
  | none =>
    rw [← isSome_find?, found, Option.isSome_none, if_neg (by simp)]
    unfold find? at found ⊢
    rw [List.find?_append]
    by_cases own : other = name
    · simp [own, found]
    · simp [own, Ne.symm own]

theorem length_add (graph : NameGraph) (name : String) (deps : List String) (order : Option Int) :
    (graph.add name deps order).nodes.length =
      graph.nodes.length + if (graph.find? name).isSome then 0 else 1 := by
  unfold add
  rw [← isSome_find?]
  split <;> simp

/-- Later additions leave the place of a name as it is. -/
theorem placeIn_append (known : name ∈ additions.map (·.name)) (more : List Addition) :
    placeIn (additions ++ more) name = placeIn additions name := by
  obtain ⟨a, member, named⟩ := List.mem_map.mp known
  have known : (additions.find? (·.name == name)).isSome := by
    rw [List.isSome_find?, List.any_eq_true]
    exact ⟨a, member, by simp [named]⟩
  have stops : (additions.takeWhile (·.name != name)).length ≠ additions.length := by
    intro whole
    have all := (List.takeWhile_sublist _).eq_of_length whole
    have passes := List.mem_takeWhile_imp (all ▸ member)
    simp [named] at passes
  obtain ⟨first, found⟩ := Option.isSome_iff_exists.mp known
  simp only [placeIn, List.find?_append, found, Option.some_or, List.takeWhile_append, if_neg stops]

/-- A new name gets its place when it is added. -/
theorem placeIn_last {last : Addition} (fresh : last.name ∉ additions.map (·.name)) :
    placeIn (additions ++ [last]) last.name =
      last.order.getD (additions.map (·.name)).toFinset.card := by
  have other : ∀ a ∈ additions, a.name ≠ last.name :=
    fun a member same => fresh (same ▸ List.mem_map_of_mem member)
  have absent : additions.find? (·.name == last.name) = none := by
    simpa using other
  have all : additions.takeWhile (·.name != last.name) = additions := by
    simpa using other
  simp [placeIn, List.find?_append, absent, List.takeWhile_append, all]

/-- A graph holds what its additions say of each name. -/
theorem find?_ofAdditions (additions : List Addition) :
    (∀ name, (ofAdditions additions).find? name =
      if name ∈ additions.map (·.name) then
        some ⟨name, placeIn additions name, depsIn additions name⟩ else none) ∧
    (ofAdditions additions).nodes.length = (additions.map (·.name)).toFinset.card := by
  induction additions using List.reverseRecOn with
  | nil => exact ⟨fun _ => rfl, rfl⟩
  | append_singleton additions last ih =>
    obtain ⟨finds, counts⟩ := ih
    have step : ofAdditions (additions ++ [last]) =
        (ofAdditions additions).add last.name last.deps last.order := by
      simp [ofAdditions]
    rw [step]
    constructor
    · intro name
      rw [find?_add, finds, finds]
      by_cases own : name = last.name
      · subst own
        by_cases known : last.name ∈ additions.map (·.name)
        · simp [known, placeIn_append known, depsIn]
        · have nothing : depsIn additions last.name = [] := by
            simp only [depsIn, List.flatMap_eq_nil_iff, List.mem_filter, beq_iff_eq]
            exact fun a ⟨member, same⟩ => absurd (same ▸ List.mem_map_of_mem member) known
          have deps : depsIn (additions ++ [last]) last.name = last.deps := by
            unfold depsIn at nothing ⊢
            simp [nothing]
          simp [known, counts, placeIn_last known, deps]
      · by_cases known : name ∈ additions.map (·.name)
        · have deps : depsIn (additions ++ [last]) name = depsIn additions name := by
            simp [depsIn, Ne.symm own]
          simp [own, known, placeIn_append known, deps]
        · simp [own, known]
    · rw [length_add, counts, finds, List.map_append, List.toFinset_append]
      by_cases known : last.name ∈ additions.map (·.name)
      · simp [known]
      · simp [known]

theorem edge_ofAdditions : (ofAdditions additions).Edge name dep ↔ dep ∈ depsIn additions name := by
  unfold Edge
  rw [(find?_ofAdditions additions).1]
  by_cases known : name ∈ additions.map (·.name)
  · simp [known]
  · have other : ∀ a ∈ additions, a.name ≠ name :=
      fun a member same => known (same ▸ List.mem_map_of_mem member)
    have nothing : additions.filter (·.name == name) = [] := by simpa using other
    simp [known, depsIn, nothing]

theorem place_ofAdditions (additions : List Addition) (name : String) :
    (ofAdditions additions).place name = placeIn additions name := by
  unfold place
  rw [(find?_ofAdditions additions).1]
  by_cases known : name ∈ additions.map (·.name)
  · simp [known]
  · have other : ∀ a ∈ additions, a.name ≠ name :=
      fun a member same => known (same ▸ List.mem_map_of_mem member)
    have absent : additions.find? (·.name == name) = none := by simpa using other
    simp [known, placeIn, absent]

end TypedClient.NameGraph
