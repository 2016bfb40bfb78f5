import Mathlib
import TypedClient.NameGraph

/-! Closures of names. The loop that makes them finds exactly the names that a path of known names
outside the excluded ones leads to. Which of the waiting names it takes next, and in which order it
puts dependencies among them, is left open, since it does not matter. -/
namespace TypedClient.NameGraph

open Relation

/-- A known name that is not excluded. -/
def Open (graph : NameGraph) (excluded : List String) (name : String) : Prop :=
  name ∈ graph.names ∧ name ∉ excluded

/-- The first name depends on the second. -/
def Edge (graph : NameGraph) (name other : String) : Prop :=
  ∃ node, graph.find? name = some node ∧ other ∈ node.deps

/-- A path of open names from one of the roots. -/
inductive Reaches (graph : NameGraph) (excluded roots : List String) : String → Prop where
  | root {name} : name ∈ roots → graph.Open excluded name → Reaches graph excluded roots name
  | step {name other} : Reaches graph excluded roots name → graph.Edge name other →
      graph.Open excluded other → Reaches graph excluded roots other

variable {graph : NameGraph} {excluded roots : List String} {name other : String} {node : NameNode}

theorem find?_eq_none : graph.find? name = none ↔ name ∉ graph.names := by
  simp [find?, names]

theorem mem_of_find? (found : graph.find? name = some node) :
    node ∈ graph.nodes ∧ node.name = name :=
  ⟨List.mem_of_find?_eq_some found, name_of_find? found⟩

theorem find?_of_mem (distinct : graph.names.Nodup) (member : node ∈ graph.nodes) :
    graph.find? node.name = some node := by
  cases found : graph.find? node.name with
  | none =>
    have absent := find?_eq_none.mp found
    exact absurd (List.mem_map_of_mem member) absent
  | some other =>
    obtain ⟨otherMember, same⟩ := mem_of_find? found
    exact congrArg some (List.inj_on_of_nodup_map distinct otherMember member same)

theorem edge_of_mem (distinct : graph.names.Nodup) (member : node ∈ graph.nodes)
    (named : node.name = name) (dep : other ∈ node.deps) : graph.Edge name other :=
  ⟨node, named ▸ find?_of_mem distinct member, dep⟩

theorem Edge.exists_node (edge : graph.Edge name other) :
    ∃ node ∈ graph.nodes, node.name = name ∧ other ∈ node.deps := by
  obtain ⟨node, found, dep⟩ := edge
  obtain ⟨member, same⟩ := mem_of_find? found
  exact ⟨node, member, same, dep⟩

theorem Reaches.isOpen (reaches : Reaches graph excluded roots name) : graph.Open excluded name := by
  cases reaches with
  | root _ isOpen => exact isOpen
  | step _ _ isOpen => exact isOpen

/-- The open dependencies of the names that are closed, as far as they are not closed themselves,
wait on the stack. -/
def Pending (graph : NameGraph) (excluded closed stack : List String) : Prop :=
  ∀ name ∈ closed, ∀ other, graph.Edge name other → graph.Open excluded other →
    other ∈ closed ∨ other ∈ stack

structure Worklist where
  closed : List String
  waiting : List String

namespace Worklist

variable {before after : Worklist}

/-- One turn of a loop takes any of the waiting names. If it is closed already, or not open, it is
dropped. Else it is closed, and some of its dependencies are put among the waiting names, in any
order and as often as one likes, as long as none that is open and not closed is left out. -/
inductive Turn (graph : NameGraph) (excluded : List String) : Worklist → Worklist → Prop where
  | drop {closed waiting rest name} : waiting.Perm (name :: rest) →
      name ∈ closed ∨ ¬ graph.Open excluded name → Turn graph excluded ⟨closed, waiting⟩ ⟨closed, rest⟩
  | take {closed waiting rest pushed name} : waiting.Perm (name :: rest) → name ∉ closed →
      graph.Open excluded name → (∀ dep ∈ pushed, graph.Edge name dep) →
      (∀ dep, graph.Edge name dep → graph.Open excluded dep → dep ∉ name :: closed → dep ∈ pushed) →
      Turn graph excluded ⟨closed, waiting⟩ ⟨name :: closed, pushed ++ rest⟩

/-- How far a loop has come from its roots: it has taken nothing that no path leads to, and what is
still to be taken waits, or waits behind a name that does. -/
structure Underway (graph : NameGraph) (excluded roots : List String) (work : Worklist) : Prop where
  distinct : work.closed.Nodup
  reached : ∀ name ∈ work.closed, Reaches graph excluded roots name
  coming : ∀ name ∈ work.waiting, graph.Open excluded name → Reaches graph excluded roots name
  started : ∀ root ∈ roots, graph.Open excluded root → root ∈ work.closed ∨ root ∈ work.waiting
  pending : Pending graph excluded work.closed work.waiting

theorem underway_start (graph : NameGraph) (excluded roots : List String) :
    Underway graph excluded roots ⟨[], roots⟩ :=
  ⟨.nil, by simp, fun _ => .root, fun _ member _ => .inr member, by simp [Pending]⟩

theorem Underway.turn (underway : Underway graph excluded roots before)
    (turn : Turn graph excluded before after) : Underway graph excluded roots after := by
  cases turn with
  | @drop closed waiting rest name taken passed =>
    have later {other : String} (isOpen : graph.Open excluded other)
        (held : other ∈ closed ∨ other ∈ waiting) : other ∈ closed ∨ other ∈ rest := by
      rcases held with old | waits
      · exact .inl old
      · rcases List.mem_cons.mp (taken.subset waits) with rfl | waits
        · exact .inl (passed.resolve_right (not_not_intro isOpen))
        · exact .inr waits
    refine ⟨underway.distinct, underway.reached, fun other waits => ?_, fun root member isOpen => ?_,
      fun other member dep edge isOpen => ?_⟩
    · exact underway.coming other (taken.symm.subset (List.mem_cons_of_mem _ waits))
    · exact later isOpen (underway.started root member isOpen)
    · exact later isOpen (underway.pending other member dep edge isOpen)
  | @take closed waiting rest pushed name taken fresh isOpen edges all =>
    have reaches : Reaches graph excluded roots name :=
      underway.coming name (taken.symm.subset List.mem_cons_self) isOpen
    have later {other : String} (held : other ∈ closed ∨ other ∈ waiting) :
        other ∈ name :: closed ∨ other ∈ pushed ++ rest := by
      rcases held with old | waits
      · exact .inl (List.mem_cons_of_mem _ old)
      · rcases List.mem_cons.mp (taken.subset waits) with rfl | waits
        · exact .inl List.mem_cons_self
        · exact .inr (List.mem_append_right _ waits)
    refine ⟨List.nodup_cons.mpr ⟨fresh, underway.distinct⟩,
      List.forall_mem_cons.mpr ⟨reaches, underway.reached⟩, ?_, fun root member isOpen => ?_, ?_⟩
    · intro other waits isOpen
      rcases List.mem_append.mp waits with dep | waits
      · exact .step reaches (edges other dep) isOpen
      · exact underway.coming other (taken.symm.subset (List.mem_cons_of_mem _ waits)) isOpen
    · exact later (underway.started root member isOpen)
    · intro other member dep edge depOpen
      rcases List.mem_cons.mp member with rfl | member
      · by_cases known : dep ∈ other :: closed
        · exact .inl known
        · exact .inr (List.mem_append_left _ (all dep edge depOpen known))
      · exact later (underway.pending other member dep edge depOpen)

theorem Underway.run (underway : Underway graph excluded roots before)
    (turns : ReflTransGen (Turn graph excluded) before after) :
    Underway graph excluded roots after := by
  induction turns with
  | refl => exact underway
  | tail _ turn ih => exact ih.turn turn

/-- Where nothing waits any more, exactly what paths lead to is closed. -/
theorem Underway.mem_closed {closed : List String} (underway : Underway graph excluded roots ⟨closed, []⟩) :
    name ∈ closed ↔ Reaches graph excluded roots name := by
  refine ⟨underway.reached name, fun reaches => ?_⟩
  induction reaches with
  | root member isOpen => simpa using underway.started _ member isOpen
  | step _ edge isOpen ih => simpa using underway.pending _ ih _ edge isOpen

/-- The closure is made by one of the loops: the one that takes the name that was put there last. -/
theorem turns_closeFrom (graph : NameGraph) (excluded closed stack : List String) :
    ReflTransGen (Turn graph excluded) ⟨closed, stack⟩ ⟨closeFrom graph excluded closed stack, []⟩ := by
  fun_induction closeFrom graph excluded closed stack with
  | case1 closed => exact .refl
  | case2 closed first stack seen ih =>
    refine .head (.drop (.refl _) ?_) ih
    exact seen.imp_right fun out isOpen => isOpen.2 out
  | case3 closed first stack fresh unknown ih =>
    exact .head (.drop (.refl _) (.inr fun isOpen => find?_eq_none.mp unknown isOpen.1)) ih
  | case4 closed first stack fresh node found ih =>
    push Not at fresh
    refine .head (.take (.refl _) fresh.1 ⟨mem_names_of_find? found, fresh.2⟩ ?_ ?_) ih
    · exact fun dep member => ⟨node, found, member⟩
    · rintro dep ⟨same, again, member⟩ _ _
      cases again.symm.trans found
      exact member

end Worklist

theorem underway_closure (graph : NameGraph) (roots excluded : List String) :
    Worklist.Underway graph excluded roots ⟨graph.closure roots excluded, []⟩ :=
  (Worklist.underway_start graph excluded roots).run
    (Worklist.turns_closeFrom graph excluded [] roots)

theorem closure_nodup (graph : NameGraph) (roots excluded : List String) :
    (graph.closure roots excluded).Nodup :=
  (underway_closure graph roots excluded).distinct

theorem mem_closure : name ∈ graph.closure roots excluded ↔ Reaches graph excluded roots name :=
  (underway_closure graph roots excluded).mem_closed

/-- Roots that are open and hold their open dependencies are their own closure. -/
theorem mem_closure_of_closed (known : ∀ root ∈ roots, graph.Open excluded root)
    (whole : ∀ root ∈ roots, ∀ other, graph.Edge root other → graph.Open excluded other →
      other ∈ roots) :
    name ∈ graph.closure roots excluded ↔ name ∈ roots := by
  rw [mem_closure]
  constructor
  · intro reaches
    induction reaches with
    | root member _ => exact member
    | step _ edge isOpen ih => exact whole _ ih _ edge isOpen
  · exact fun member => .root member (known name member)

end TypedClient.NameGraph
