import TypedClient.Proofs.NameGraph.Additions
import TypedClient.Proofs.NameGraph.Schedule

/-! Orders of names. A name may stand before one that it depends on only if it lies on a cycle, and
it does not matter in which order names and dependencies are given. -/
namespace TypedClient.NameGraph

open Relation

variable {graph : NameGraph} {names : List String} {name other : String}

theorem topologicalOrder_nodup : (graph.topologicalOrder names).Nodup :=
  (greedy_topologicalOrder graph names).distinct

theorem mem_topologicalOrder : name ∈ graph.topologicalOrder names ↔ name ∈ names :=
  (greedy_topologicalOrder graph names).whole name

/-- In an order of names only a name on a cycle stands before one that it depends on. -/
theorem topologicalOrder_before {earlier later : List String}
    (split : graph.topologicalOrder names = earlier ++ name :: later)
    (edge : graph.Edge name other) (after : other ∈ later) :
    TransGen graph.Edge name name := by
  have distinct : (earlier ++ name :: later).Nodup := split ▸ topologicalOrder_nodup
  have different : other ≠ name := by
    rintro rfl
    exact (List.nodup_cons.mp distinct.of_append_right).1 after
  have inside : ∀ x ∈ earlier ++ name :: later, x ∈ names :=
    fun x member => mem_topologicalOrder.mp (split ▸ member)
  have inner : (graph.agenda names).Inner name other :=
    ⟨inside name (by simp), inside other (by simp [after]), different, edge⟩
  have path := (greedy_topologicalOrder graph names).cyclic split inner after
  exact TransGen.mono (fun _ _ inner => inner.2.2.2) _ _ path

def agendaOf (additions : List Addition) (names : List String) : Agenda where
  names := { name | name ∈ names }
  depends name dep := dep ∈ depsIn additions name
  place := placeIn additions

theorem agenda_ofAdditions (additions : List Addition) (names : List String) :
    (ofAdditions additions).agenda names = agendaOf additions names := by
  unfold agenda agendaOf
  congr 1
  · funext name dep
    exact propext edge_ofAdditions
  · funext name
    exact place_ofAdditions additions name

/-- The order of any names in any graph is greedy. So a name stands before one that it depends on
only if it lies on a cycle, and nothing else than the names, their places and their dependencies
decides on the order. -/
theorem topologicalOrder_greedy (additions : List Addition) (names : List String) :
    let agenda := agendaOf additions names
    let result := (ofAdditions additions).topologicalOrder names
    agenda.Greedy result ∧
      (∀ listed name rest dep, result = listed ++ name :: rest → agenda.Inner name dep → dep ∈ rest →
        TransGen agenda.Inner name name) ∧
      ∀ others more, agenda.Alike (agendaOf others more) →
        (ofAdditions others).topologicalOrder more = result := by
  have each (additions : List Addition) (names : List String) :
      (agendaOf additions names).Greedy ((ofAdditions additions).topologicalOrder names) :=
    agenda_ofAdditions additions names ▸ greedy_topologicalOrder (ofAdditions additions) names
  intro agenda result
  have greedy := each additions names
  refine ⟨greedy, fun listed name rest dep => greedy.cyclic, fun others more alike => ?_⟩
  exact (each others more).unique (alike.greedy greedy)

end TypedClient.NameGraph
