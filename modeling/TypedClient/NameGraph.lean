/-! Graphs of names: what a name depends on, and the names that others need. -/
namespace TypedClient

/-- A name, its place among the others and the names that it depends on. -/
structure NameNode where
  name : String
  order : Int
  deps : List String
deriving Repr, DecidableEq

structure NameGraph where
  nodes : List NameNode := []
deriving Repr

namespace NameGraph

def find? (graph : NameGraph) (name : String) : Option NameNode :=
  graph.nodes.find? (·.name == name)

def contains (graph : NameGraph) (name : String) : Bool :=
  graph.nodes.any (·.name == name)

def names (graph : NameGraph) : List String :=
  graph.nodes.map (·.name)

/-- What a name depends on; nothing if it is unknown. -/
def deps (graph : NameGraph) (name : String) : List String :=
  ((graph.find? name).map (·.deps)).getD []

/-- The place of a name; zero if it is unknown. -/
def place (graph : NameGraph) (name : String) : Int :=
  ((graph.find? name).map (·.order)).getD 0

/-- Adds a name, or further dependencies of a name that is there. A name keeps its first place,
which is the number of names before it unless another is given. -/
def add (graph : NameGraph) (name : String) (deps : List String) (order : Option Int := none) :
    NameGraph :=
  if graph.contains name then
    ⟨graph.nodes.map fun n => if n.name == name then { n with deps := n.deps ++ deps } else n⟩
  else ⟨graph.nodes ++ [⟨name, order.getD graph.nodes.length, deps⟩]⟩

theorem name_of_find? {graph : NameGraph} {name : String} {node : NameNode}
    (h : graph.find? name = some node) : node.name = name := by
  have same := List.find?_some h
  exact eq_of_beq same

theorem mem_names_of_find? {graph : NameGraph} {name : String} {node : NameNode}
    (h : graph.find? name = some node) : name ∈ graph.names :=
  List.mem_map.mpr ⟨node, List.mem_of_find?_eq_some h, name_of_find? h⟩

/-- How much a worklist can still take from the nodes: each open node with its dependencies. -/
def workLeft (closed : List String) : List NameNode → Nat
  | [] => 0
  | node :: rest =>
    (if node.name ∈ closed then 0 else node.deps.length + 1) + workLeft closed rest

private theorem workLeft_cons_le (closed : List String) (name : String) (nodes : List NameNode) :
    workLeft (name :: closed) nodes ≤ workLeft closed nodes := by
  induction nodes with
  | nil => exact Nat.le_refl _
  | cons node rest ih =>
    by_cases seen : node.name ∈ closed
    · simpa [workLeft, seen] using ih
    · simp only [workLeft, seen, List.mem_cons, or_false, if_false]
      split <;> omega

private theorem workLeft_take {closed : List String} {node : NameNode} {nodes : List NameNode}
    (member : node ∈ nodes) (fresh : node.name ∉ closed) :
    workLeft (node.name :: closed) nodes + node.deps.length < workLeft closed nodes := by
  induction nodes with
  | nil => cases member
  | cons other rest ih =>
    rcases List.mem_cons.mp member with rfl | member
    · have rest := workLeft_cons_le closed node.name rest
      simp only [workLeft, List.mem_cons, true_or, if_true, fresh, if_false]
      omega
    · have rest := ih member
      by_cases seen : other.name ∈ closed
      · simpa [workLeft, seen] using rest
      · simp only [workLeft, seen, List.mem_cons, or_false, if_false]
        split <;> omega

/-- Closes a set of names under dependencies. Names that are unknown or excluded are neither
taken nor followed. -/
def closeFrom (graph : NameGraph) (excluded closed : List String) : List String → List String
  | [] => closed
  | name :: stack =>
    if _seen : name ∈ closed ∨ name ∈ excluded then closeFrom graph excluded closed stack
    else match _found : graph.find? name with
      | none => closeFrom graph excluded closed stack
      | some node => closeFrom graph excluded (name :: closed) (node.deps ++ stack)
termination_by stack => workLeft closed graph.nodes + stack.length
decreasing_by
  · simp
  · simp
  · have named := name_of_find? _found
    have taken := workLeft_take (List.mem_of_find?_eq_some _found)
      (fun h => _seen (.inl (named ▸ h)))
    simp only [named] at taken
    simp only [List.length_append, List.length_cons]
    omega

theorem workLeft_deps (graph : NameGraph) {seen : List String} {name : String} (fresh : name ∉ seen) :
    workLeft (name :: seen) graph.nodes + (graph.deps name).length ≤ workLeft seen graph.nodes := by
  unfold deps
  cases found : graph.find? name with
  | none => exact workLeft_cons_le seen name graph.nodes
  | some node =>
    obtain rfl := name_of_find? found
    exact Nat.le_of_lt (workLeft_take (List.mem_of_find?_eq_some found) fresh)

/-- The names that can be reached from the roots along dependencies, each once. -/
def closure (graph : NameGraph) (roots excluded : List String) : List String :=
  closeFrom graph excluded [] roots

end NameGraph

end TypedClient
